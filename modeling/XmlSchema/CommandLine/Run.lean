import XmlSchema.CommandLine.Arguments
import XmlSchema.CommandLine.Report

/-!
# Running a command line

`Request.run` says what a request prints and with which status it ends, and `run` says it of a
command line. Files are read through a function, so that nothing here depends on a file system.
-/

namespace XmlSchema.CommandLine

/-- How a run ends: its status and what it printed. -/
structure Outcome where
  status : UInt8
  output : String
  messages : String
deriving DecidableEq

namespace Outcome

def success (output : String) (messages : List String) : Outcome := ⟨0, output, unlines messages⟩

/-- A run that failed, with earlier messages. -/
def failure (reason : String) (messages : List String) : Outcome :=
  ⟨1, "", unlines (messages ++ ["Error: " ++ reason])⟩

end Outcome

/-- How the program is called. -/
def usageLines : List String :=
  ["Usage: xsdc [-v] inspect [-e NAME] [--elements] [--types] [--strict] [-j] SCHEMA",
   "       xsdc [-v] check [--strict] [--deny-warnings] SCHEMA"]

/-- The options of a compilation that is strict or not. -/
def optionsFor (strict : Bool) : Options :=
  { Options.standard with fallback := if strict then .strict else .lenient }

def compileFile (read : String → Except String Bytes) (schema : String) (strict : Bool) :
    Except Error Model :=
  compile (optionsFor strict) (.ofLocation read (.file schema))

def inspectElement (model : Model) (name : String) (json : Bool) : Outcome :=
  match (model.element? name).or (model.simpleElement? name) with
  | none => .failure s!"Element '{name}' not found in schema" []
  | some view =>
      if json then
        let details :=
          match (Dump.ofModel model).element? name with
          | some entry => entry.toJson
          | none => detailJson view
        .success (unlines [details.render .lines]) []
      else .success (unlines (detailLines model view)) []

/-- Shows a model. Without a choice between its lists both are shown. -/
def inspectModel (inspection : Inspection) (model : Model) : Outcome :=
  if inspection.json then .success (unlines [(Dump.ofModel model).render]) []
  else
    let all := !inspection.elements && !inspection.types
    .success (unlines (summaryLines model ++
      (if all || inspection.elements then elementLines model else []) ++
      (if all || inspection.types then simpleTypeLines model else []) ++
      warningLines model)) []

def inspect (read : String → Except String Bytes) (inspection : Inspection) : Outcome :=
  match compileFile read inspection.schema inspection.strict with
  | .error error => .failure error.message []
  | .ok model =>
      match inspection.element? with
      | some name => inspectElement model name inspection.json
      | none => inspectModel inspection model

def check (read : String → Except String Bytes) (checking : Checking) : Outcome :=
  match compileFile read checking.schema checking.strict with
  | .error error => .failure error.message []
  | .ok model =>
      let count := model.context.warnings.length
      let messages := model.context.warnings.map fun warning => "warning: " ++ warning.message
      if checking.denyWarnings && count > 0 then .failure s!"{count} warning(s) reported" messages
      else
        let elements := s!"{model.elements.length} elements"
        let simpleTypes := s!"{model.simpleTypes.length} simple types"
        .success (unlines [s!"OK: {elements}, {simpleTypes}, {count} warning(s)"]) messages

def versionLine : String := s!"xsdc {version}"

def Request.run (read : String → Except String Bytes) : Request → Outcome
  | .help => .success (unlines usageLines) []
  | .version => .success (unlines [versionLine]) []
  | .inspect inspection => CommandLine.inspect read inspection
  | .check checking => CommandLine.check read checking
  | .misuse => ⟨2, "", unlines usageLines⟩

def run (read : String → Except String Bytes) (arguments : List String) : Outcome :=
  (Request.ofArguments arguments).run read

end XmlSchema.CommandLine
