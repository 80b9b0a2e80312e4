import XmlSchema.Compile
import XmlSchema.Dump.Codec

/-!
# Reports on models

The texts that the commands print, line by line: a summary of a model, its lists, and the details of
one declaration.
-/

namespace XmlSchema.CommandLine

def version : String := "0.1.0"

/-- Lines as text, each with its end. -/
def unlines (lines : List String) : String := String.join (lines.map (· ++ "\n"))

/-- A qualifier without the colons at its end. -/
def bareQualifier (qualifier : String) : String :=
  String.ofList (qualifier.toList.reverse.dropWhile (· = ':')).reverse

/-- A text, or the word for none where it is empty. -/
def orNone (text : String) : String := if text = "" then "(none)" else text

/-- What a model is about, in numbers. -/
def summaryLines (model : Model) : List String :=
  [s!"xsd-compiler v{version}",
   "",
   "Schema Information:",
   "  Target Namespace: " ++ model.context.targetNamespace?.getD "(none)",
   "  XSD Prefix: " ++ orNone (bareQualifier model.context.vocabulary.qualifier),
   "",
   "Statistics:",
   s!"  Named Elements: {model.elements.length}",
   s!"  Top-level Elements: {model.topLevelElements.length}",
   s!"  Simple Types: {model.simpleTypes.length}",
   s!"  Substitution Groups: {model.context.substitutionGroups.size}",
   s!"  Warnings: {model.context.warnings.length}"]

/-- The type of a declaration, or the word for one without a type. -/
def typeText (element : Element) : String := element.type?.getD "anonymous"

def elementLines (model : Model) : List String :=
  ["", "=== Named Elements ==="] ++ model.elements.map fun view =>
    let kind := if view.element.isComplex then "complex" else "simple"
    s!"  {view.element.name} : {typeText view.element} ({kind})"

def simpleTypeLines (model : Model) : List String :=
  ["", "=== Simple Types ==="] ++ model.simpleTypes.map fun type =>
    s!"  {type.name} : " ++ type.base?.getD "(none)"

/-- The warnings, if there are any. -/
def warningLines (model : Model) : List String :=
  if model.context.warnings.isEmpty then []
  else ["", "=== Warnings ==="] ++ model.context.warnings.map fun warning => "  " ++ warning.message

def maximumText (element : Element) : String :=
  if element.isUnbounded then "unbounded" else toString element.maxOccurs.toNat

/-- How often a declaration occurs. -/
def occurrenceText (element : Element) : String :=
  s!"{element.minOccurs.toNat}..{maximumText element}"

def truthText (value : Bool) : String := if value then "true" else "false"

/-- What restricts a declaration, if anything does. -/
def restrictionLines : Restriction → List String
  | .enumeration values => ["  Enumeration: " ++ ", ".intercalate values]
  | .range bounds =>
      let bound (bound? : Option Decimal) : String := (bound?.map Decimal.render).getD ""
      [s!"  Range: {bound bounds.minimum?}..{bound bounds.maximum?}"]
  | .unconstrained => []

def detailLines (model : Model) (view : View) : List String :=
  let element := view.element
  ["Element: " ++ element.name,
   "  Clean Name: " ++ element.cleanName,
   "  Type: " ++ typeText element,
   "  Complex: " ++ truthText element.isComplex] ++
  (element.base?.toList.map fun base => "  Base: " ++ base) ++
  ["  Occurs: " ++ occurrenceText element,
   "  Mixed: " ++ truthText element.isMixed] ++
  (if element.mixedMismatch then ["  Mixed Extension Error: true"] else []) ++
  ["  Abstract: " ++ truthText element.isAbstract,
   "  Extended: " ++ truthText element.isExtended] ++
  restrictionLines element.facets.restriction ++
  (element.attributes.values.map fun declaration =>
    s!"  @{declaration.name} : {declaration.typeName} ({declaration.usage.word})") ++
  ((model.children view).map fun child =>
    s!"  - {child.element.name} : {typeText child.element} [{occurrenceText child.element}]")

/-- The details of a declaration that is not in a dump, as JSON with its members in alphabetic
order. -/
def detailJson (view : View) : Json :=
  let element := view.element
  let maximum? := if element.isUnbounded then none else some element.maxOccurs
  .object [("is_complex", .bool element.isComplex), ("max_occurs", .word32OrNull maximum?),
    ("min_occurs", .natural element.minOccurs.toNat), ("name", .string element.name),
    ("type", .stringOrNull element.type?)]

end XmlSchema.CommandLine
