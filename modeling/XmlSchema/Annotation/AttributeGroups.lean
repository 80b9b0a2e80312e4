import XmlSchema.Annotation.Progress
import XmlSchema.Attribute
import XmlSchema.Namespace
import XmlSchema.Warning

/-!
# Merging of attribute groups

A declaration that refers to attribute groups has their attributes, and a group has those of the
groups that it includes. A group's own attributes come after those that it includes and replace
them. A reference without a definition, or back to a group that is just being merged, adds a warning
and nothing else.
-/

namespace XmlSchema

/-- The attributes merged so far, and the problems on the way. -/
structure AttributeMerge where
  attributes : Table Attribute
  warnings : List Warning
deriving DecidableEq

def AttributeMerge.empty : AttributeMerge := ⟨.empty, []⟩

def AttributeMerge.warn (merge : AttributeMerge) (warning : Warning) : AttributeMerge :=
  { merge with warnings := merge.warnings ++ [warning] }

/-- The name of the group to which a reference refers: the reference itself if there is such a
group, else its local part. -/
def attributeGroupName (groups : Table AttributeGroup) (reference : String) : String :=
  if groups.contains reference then reference else Namespace.localPart reference

def referenceCount (groups : Table AttributeGroup) : Nat :=
  total (fun group => group.references.length) groups.values + 1

theorem length_references_lt {groups : Table AttributeGroup} {name : String}
    {group : AttributeGroup} (found : groups.find? name = some group) :
    group.references.length < referenceCount groups := by
  have bound : total (fun _ => 0) groups.values + group.references.length ≤
      total (fun group : AttributeGroup => group.references.length) groups.values :=
    total_add_le (fun _ => Nat.zero_le _) (Table.mem_values_of_find? found)
      (Nat.le_of_eq (Nat.zero_add _))
  unfold referenceCount
  omega

/-- How many references a merge can still take up inside the groups of a path. -/
def mergeWork (groups : Table AttributeGroup) (path : List String) : Nat :=
  unvisited groups.keys path * referenceCount groups

/-- Inside one more group, a merge can take up fewer references, those of the group included. -/
theorem mergeWork_cons {groups : Table AttributeGroup} {path : List String} {name : String}
    {group : AttributeGroup} (found : groups.find? name = some group) (new : name ∉ path) :
    mergeWork groups (name :: path) + group.references.length < mergeWork groups path := by
  have fewer := unvisitedKeys_cons_lt (Table.contains_of_find? found) new
  calc mergeWork groups (name :: path) + group.references.length
      < mergeWork groups (name :: path) + referenceCount groups :=
        Nat.add_lt_add_left (length_references_lt found) _
    _ = (unvisited groups.keys (name :: path) + 1) * referenceCount groups :=
        (Nat.succ_mul _ _).symm
    _ ≤ mergeWork groups path := Nat.mul_le_mul_right _ fewer

set_option linter.unusedVariables false in
mutual

/-- Merges the group of one reference for the declaration `owner`. The path holds the groups inside
which the merge already is. -/
def mergeGroup (groups : Table AttributeGroup) (owner : String) (path : List String)
    (reference : String) (merge : AttributeMerge) : AttributeMerge :=
  let name := attributeGroupName groups reference
  match found : groups.find? name with
  | none => merge.warn (.undefinedAttributeGroup reference owner)
  | some group =>
      if name ∈ path then merge.warn (.circularAttributeGroup name)
      else
        let nested := mergeGroups groups owner (name :: path) group.references merge
        { nested with attributes := nested.attributes.insertAll group.attributes }
termination_by mergeWork groups path
decreasing_by exact mergeWork_cons found (by assumption)

/-- Merges the groups of a list of references, in order. -/
def mergeGroups (groups : Table AttributeGroup) (owner : String) (path : List String) :
    List String → AttributeMerge → AttributeMerge
  | [], merge => merge
  | reference :: rest, merge =>
      mergeGroups groups owner path rest (mergeGroup groups owner path reference merge)
termination_by references => mergeWork groups path + references.length
decreasing_by
  · simp
  · simp

end

end XmlSchema
