import XmlSchema.Annotation.Pass
import XmlSchema.Model
import XmlSchema.Source
import XmlSchema.Tree.Reading

/-!
# Compilation

A compilation reads a document into a fresh context and annotates the tree. It ends with a model or
with the first error.
-/

namespace XmlSchema

def compileBytes (options : Options) (document : Bytes) : Except Error Model :=
  match options.limits.checkSize document.length with
  | .error fault => .error (.limit fault)
  | .ok () =>
      match readTree (.initial options) document with
      | .error halt => .error halt.cause
      | .ok (context, root) =>
          match annotate root context with
          | .error halt => .error halt.cause
          | .ok annotated => .ok ⟨annotated, root⟩

def compileText (options : Options) (document : String) : Except Error Model :=
  compileBytes options (Text.Utf8.encode document)

def compile (options : Options) (source : Source) : Except Error Model :=
  match source.load options.limits with
  | .error error => .error error
  | .ok document => compileBytes options document

end XmlSchema
