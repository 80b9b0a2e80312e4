import XmlSchema.Error
import XmlSchema.Halt
import XmlSchema.Tree.Closing
import XmlSchema.Tree.Opening

/-!
# From events to a tree

`Assembly.step` takes one event and `Assembly.run` the events of a document in order. `readTree`
reads a document into a context and gives the handle of its schema; when it halts, the context keeps
what was entered before.
-/

namespace XmlSchema

/-- Why an event cannot be taken. -/
inductive Refusal where
  | limit (fault : LimitFault)
  | malformed (tag : String) (cause : MalformedCause)
deriving DecidableEq

/-- The error of a refusal at a place. -/
def Refusal.toError (place : Xml.Location) : Refusal → Error
  | .limit fault => .limit fault
  | .malformed tag cause => .malformed ⟨tag, cause, some place⟩

namespace Assembly

/-- The first tag of a document decides under which qualifier the document names constructs. -/
def adoptQualifier (assembly : Assembly) (tag : String) (attributes : Xml.Attributes) : Assembly :=
  if assembly.awaitsFirstTag then
    let seen := { assembly with awaitsFirstTag := false }
    match Namespace.detectQualifier? tag attributes.entries with
    | some qualifier => seen.mapContext ({ · with vocabulary := ⟨qualifier⟩ })
    | none => seen
  else assembly

def stepOpening (assembly : Assembly) (tag : String) (attributes : Xml.Attributes) :
    Except (Halt Refusal) Assembly :=
  let adopted := assembly.adoptQualifier tag attributes
  match adopted.context.options.limits.checkDepth (adopted.openTags.length + 1) with
  | .error fault => .error ⟨.limit fault, adopted.context⟩
  | .ok () =>
      let construct := adopted.context.vocabulary.classify tag
      let (opened, opensNode) := adopted.openTag construct attributes
      .ok { opened with openTags := ⟨construct, tag, opensNode⟩ :: opened.openTags }

/-- Takes a closing. The schema closes only when no other node is open. -/
def stepClosing (assembly : Assembly) : Except (Halt Refusal) Assembly :=
  match assembly.openTags with
  | [] => .error ⟨.malformed assembly.innermostTag .strayClosing, assembly.context⟩
  | tag :: outer =>
      let popped := { assembly with openTags := outer }
      if tag.construct = .schema then
        match popped.openNodes with
        | [root] => .ok { popped with openNodes := [], root? := some root }
        | openNodes => .error ⟨.malformed tag.tag (.unbalanced openNodes.length), popped.context⟩
      else .ok (popped.closeTag tag)

/-- Takes text: inside documentation it is added to the innermost open node below the schema, with
its white space normalized. -/
def stepText (assembly : Assembly) (text : String) : Assembly :=
  if assembly.within .documentation && assembly.depth ≥ 2 then
    let normalized := " ".intercalate (Text.words text)
    if normalized = "" then assembly else assembly.modifyTop (.document normalized)
  else assembly

def step (assembly : Assembly) : Xml.Event → Except (Halt Refusal) Assembly
  | .opening tag attributes => assembly.stepOpening tag attributes
  | .empty tag attributes =>
      match assembly.stepOpening tag attributes with
      | .error halt => .error halt
      | .ok opened => opened.stepClosing
  | .closing => assembly.stepClosing
  | .text content => .ok (assembly.stepText content)

/-- Takes the events of a document, whose bytes give places to refusals. -/
def run (document : Bytes) (assembly : Assembly) :
    List (Xml.Located Xml.Event) → Except (Halt Error) Assembly
  | [] => .ok assembly
  | event :: rest =>
      match assembly.step event.value with
      | .error halt =>
          .error ⟨halt.cause.toError (Xml.place document event.behind), halt.context⟩
      | .ok next => next.run document rest

/-- Ends an assembly: every tag has to be closed and a schema read. -/
def finish (document : Bytes) (assembly : Assembly) : Except Error NodeId :=
  if assembly.openTags.isEmpty then
    match assembly.root? with
    | some root => .ok root
    | none => .error (.malformed ⟨"schema", .noSchema, none⟩)
  else
    .error (.malformed ⟨assembly.innermostTag, .unexpectedEnd,
      some (.ofOffset document document.length)⟩)

/-- The error of a fault in the markup of a document. -/
def markupError (document : Bytes) (assembly : Assembly) (fault : Xml.Located Xml.Fault) : Error :=
  let construct :=
    match fault.value with
    | .attributes tag _ => tag
    | _ => assembly.innermostTag
  .malformed ⟨construct, .markup fault.value, some (Xml.place document fault.behind)⟩

end Assembly

/-- Reads a document into a context and gives the handle of its schema. -/
def readTree (context : Context) (document : Bytes) : Except (Halt Error) (Context × NodeId) :=
  let reading := Xml.read document
  match (Assembly.start context).run document reading.events with
  | .error halt => .error halt
  | .ok assembly =>
      match reading.fault? with
      | some fault => .error ⟨assembly.markupError document fault, assembly.context⟩
      | none =>
          match assembly.finish document with
          | .error error => .error ⟨error, assembly.context⟩
          | .ok root => .ok (assembly.context, root)

end XmlSchema
