import XmlSchema.Annotation.Inheritance
import XmlSchema.Halt

/-!
# Mixed content along inheritance

A declaration with mixed content makes the content of all its ancestors mixed. A declaration that
extends a mixed one without being mixed itself is flagged, once. On the way the simple types behind
each declaration are recorded.
-/

namespace XmlSchema

namespace Context

/-- Makes a declaration and its ancestors mixed if one of them is. -/
def equalizeMixed (context : Context) (members : List NodeId) : Context :=
  if (members.filterMap context.element?).any Element.isMixed then
    members.foldl (fun context member => context.modifyElement member ({ · with isMixed := true }))
      context
  else context

/-- The names along the bases of simple types from a base on, at most `steps` of them and none
twice. -/
def simpleAncestors (context : Context) (visited : List String) :
    Nat → Option String → List String
  | _, none => []
  | 0, some _ => []
  | steps + 1, some base =>
      if base ∈ visited then []
      else
        let name := context.vocabulary.tableName base
        name :: context.simpleAncestors (base :: visited) steps
          ((context.simpleType? name).bind SimpleType.base?)

/-- A declaration with the simple types behind it: its base if that is not in the index, and the
ancestors of the first simple type. -/
def withSimpleBases (context : Context) (element : Element) : Element :=
  let based :=
    match element.base? with
    | some base =>
        if context.elementIndex.contains base then element else element.addSimpleBase base
    | none => element
  match based.simpleBases.head? with
  | some first =>
      let base? := (context.simpleType? first).bind SimpleType.base?
      (context.simpleAncestors [] context.options.limits.simpleTypeHops base?).foldl
        Element.addSimpleBase based
  | none => based

/-- Flags the first declaration on a chain whose content is mixed otherwise than that of the
declaration from which the chain starts. `link` is the declaration before the chain. -/
def flagMismatch (context : Context) (isMixed : Bool) (link : NodeId) : List NodeId → Context
  | [] => context
  | parent :: rest =>
      let parentMixed := ((context.element? parent).map Element.isMixed).getD isMixed
      if parentMixed = isMixed then context.flagMismatch isMixed parent rest
      else
        match context.element? link with
        | none => context
        | some element =>
            if element.mixedMismatch then context
            else
              (context.modifyElement link ({ · with mixedMismatch := true })).warn
                (.mixedContentMismatch element.name (context.nodeName parent))

def checkMixed (context : Context) (id : NodeId) (chain : List NodeId) : Context :=
  match context.element? id with
  | some element => context.flagMismatch element.isMixed id chain
  | none => context

end Context

/-- Equalizes one declaration and its ancestors, which are kept for the check afterwards. -/
def equalizeElement (state : Context × List (NodeId × List NodeId)) (id : NodeId) :
    Except (Halt Error) (Context × List (NodeId × List NodeId)) :=
  let (context, chains) := state
  match context.ancestors id with
  | .error error => .error ⟨error, context⟩
  | .ok chain =>
      let equalized := context.equalizeMixed (id :: chain)
      .ok (equalized.modifyElement id equalized.withSimpleBases, (id, chain) :: chains)

/-- Equalizes mixed content below a root, and checks every chain when all are equalized, since a
later chain may make the base of an earlier one mixed. -/
def checkMixedContent (root : NodeId) (context : Context) : Except (Halt Error) Context :=
  match (context.walk root).foldlM equalizeElement (context, []) with
  | .error halt => .error halt
  | .ok (equalized, chains) =>
      .ok (chains.reverse.foldl (fun context (id, chain) => context.checkMixed id chain) equalized)

end XmlSchema
