import XmlSchema.Error

/-!
# Sources of documents

A document comes from memory, from a file or from a stream. `Source.load` gives its bytes, unless
the source fails or the document is too large. A stream is drained in the pieces in which it comes,
and only one byte beyond the largest size, so that it never fails behind that.
-/

namespace XmlSchema

/-- Where a document is. -/
inductive Location where
  | file (path : String)
  | memory (text : String)
deriving DecidableEq

namespace Location

def describe : Location → String
  | .file path => path
  | .memory _ => "<string>"

def isFile : Location → Bool
  | .file _ => true
  | .memory _ => false

end Location

/-- What one read of a stream gives. A piece without bytes is the end of the stream, and an
interrupted read is made again. -/
inductive Delivery where
  | piece (bytes : Bytes)
  | interruption
  | failure (reason : String)
deriving DecidableEq

/-- Reads until the stream ends, fails or has given `budget` bytes. A spent budget asks for no
further read. -/
def drain : Nat → List Delivery → Except String Bytes
  | 0, _ | _ + 1, [] | _ + 1, .piece [] :: _ => .ok []
  | _ + 1, .failure reason :: _ => .error reason
  | budget + 1, .interruption :: rest => drain (budget + 1) rest
  | budget + 1, .piece (byte :: bytes) :: rest =>
      let taken := byte :: bytes.take budget
      (drain (budget + 1 - taken.length) rest).map (taken ++ ·)

/-- The bytes that a stream gives in all, and why it fails behind them, if it does not end there. -/
structure Stream where
  bytes : Bytes
  failure? : Option String
deriving DecidableEq

/-- A stream whose bytes come in one piece. -/
def Stream.deliveries (stream : Stream) : List Delivery :=
  (if stream.bytes.isEmpty then [] else [.piece stream.bytes]) ++
    stream.failure?.toList.map .failure

/-- Where a document comes from. -/
inductive Source where
  | bytes (document : Bytes)
  /-- A file of a path, with its content or the reason why it cannot be read. -/
  | file (path : String) (content : Except String Bytes)
  /-- A stream, as successive reads give it. -/
  | delivered (deliveries : List Delivery)

namespace Source

def stream (stream : Stream) : Source := .delivered stream.deliveries

def text (document : String) : Source := .bytes (Text.Utf8.encode document)

/-- The source at a location, where `read` reads files. -/
def ofLocation (read : String → Except String Bytes) : Location → Source
  | .file path => .file path (read path)
  | .memory document => text document

/-- The bytes of a document that are not too many. -/
def checkSize (limits : Limits) (document : Bytes) : Except Error Bytes :=
  match limits.checkSize document.length with
  | .ok () => .ok document
  | .error fault => .error (.limit fault)

def load (limits : Limits) : Source → Except Error Bytes
  | .bytes document => checkSize limits document
  | .file path (.error reason) => .error (.resource path reason)
  | .file _ (.ok document) => checkSize limits document
  | .delivered deliveries =>
      match drain limits.readSize deliveries with
      | .error reason => .error (.io reason)
      | .ok document => checkSize limits document

end Source

end XmlSchema
