import XmlSchema.Annotation.Inheritance
import XmlSchema.Halt

/-!
# Distinct names of attributes and children

In a record made from a declaration, attributes and children are fields side by side. An attribute
whose identifier is that of a child, be it a child of an ancestor, is renamed: `freshName` adds to
its name until neither the identifier nor the name is taken.
-/

namespace XmlSchema

def longestLength (texts : List String) : Nat :=
  texts.foldr (fun text longest => max text.length longest) 0

theorem length_le_longestLength {text : String} {texts : List String} (member : text ∈ texts) :
    text.length ≤ longestLength texts := by
  induction texts with
  | nil => cases member
  | cons first rest inductionHypothesis =>
      rcases List.mem_cons.1 member with rfl | later
      · exact Nat.le_max_left _ _
      · exact Nat.le_trans (inductionHypothesis later) (Nat.le_max_right _ _)

/-- What is added to the name of an attribute that shares its identifier with a child. -/
def attributeSuffix : String := "_attr"

/-- A name made from `name` by adding the suffix zero or more times, so that its identifier is not
among `identifiers` and it is not itself among `names`. Nothing longer than all of them is taken, so
the adding ends. -/
def freshName (identifiers names : List String) (name : String) : String :=
  if clean name ∈ identifiers ∨ name ∈ names then
    freshName identifiers names (name ++ attributeSuffix)
  else name
termination_by longestLength identifiers + longestLength names + 1 - name.length
decreasing_by
  rename_i taken
  have bounded : name.length ≤ longestLength identifiers + longestLength names := by
    rcases taken with identifier | same
    · have := length_le_longestLength identifier
      rw [length_clean] at this
      omega
    · have := length_le_longestLength same
      omega
  have longer : (name ++ attributeSuffix).length = name.length + 5 := by
    rw [String.length_append]
    rfl
  omega

def Context.childIdentifiers (context : Context) (owners : List NodeId) : List String :=
  (owners.filterMap context.element?).flatMap fun owner =>
    (owner.children.filterMap context.element?).map Element.plainCleanName

/-- Attributes of which none has an identifier among `identifiers`: those that have are renamed,
also away from the names that the other attributes have, and the order stays. -/
def separateNames (identifiers : List String) (attributes : Table Attribute) : Table Attribute :=
  attributes.entries.foldl (fun separated (key, declaration) =>
    if declaration.cleanName ∈ identifiers then
      let name := freshName identifiers (attributes.keys ++ separated.keys)
        (declaration.name ++ attributeSuffix)
      separated.insert name (declaration.rename name)
    else separated.insert key declaration) .empty

/-- Renames the attributes of one declaration that share an identifier with a child. -/
def separateElement (context : Context) (id : NodeId) : Except (Halt Error) Context :=
  match context.ancestors id with
  | .error error => .error ⟨error, context⟩
  | .ok chain =>
      let identifiers := context.childIdentifiers (id :: chain)
      .ok (context.modifyElement id fun element =>
        { element with attributes := separateNames identifiers element.attributes })

/-- Renames the attributes below a root that share an identifier with a child. -/
def separateAttributes (root : NodeId) (context : Context) : Except (Halt Error) Context :=
  (context.walk root).foldlM separateElement context

end XmlSchema
