import XmlSchema.Proofs.PassFrames
import XmlSchema.Proofs.Tree.Soundness

/-!
# Expansion keeps trees sound

The expansion of groups moves children from one declaration to others and makes none up. So where
all children are in a set of handles they stay in it, `childrenIn_expandGroups`, and a sound tree
stays sound, `sound_expandGroups`.
-/

namespace XmlSchema

theorem Context.ChildrenIn.setChildren {context : Context} {inside : NodeId → Prop}
    (contained : context.ChildrenIn inside) (id : NodeId) {members : List NodeId}
    (membersInside : ∀ member ∈ members, inside member) :
    (context.modifyElement id ({ · with children := members })).ChildrenIn inside := by
  intro other changed found child member
  have read := (Arena.element?_modifyElement context.arena id other
    ({ · with children := members })).symm.trans found
  split at read
  · obtain ⟨original, -, rfl⟩ := Option.map_eq_some_iff.1 read
    exact membersInside child member
  · exact contained other changed read child member

theorem keptByExpansion_childrenIn (inside : NodeId → Prop) :
    KeptByExpansion inside (·.ChildrenIn inside) where
  contained contained := contained
  undefined contained _ _ := contained
  circular contained _ _ := contained
  writes contained id _ membersInside := contained.setChildren id membersInside

/-- Whether or not the expansion halts, it writes no child from outside. -/
theorem childrenIn_expandGroups {inside : NodeId → Prop} {context : Context}
    (contained : context.ChildrenIn inside) (root : NodeId) :
    (endContext (expandGroups root context)).ChildrenIn inside :=
  (keptByExpansion_childrenIn inside).expandGroups root contained

/-- Expansion keeps a sound tree sound. -/
theorem sound_expandGroups {root : NodeId} {context next : Context} (sound : context.Sound)
    (expanded : expandGroups root context = .ok next) : next.Sound := by
  have frame : Frame (.keeping Element.typePart) context next :=
    (frame_expandGroups (fun _ _ => rfl) root context).of_ok expanded
  refine ⟨?_, ?_, ?_⟩
  · intro id element found
    obtain ⟨original, present, same⟩ := frame.of_element?_after found
    rw [frame.vocabulary]
    exact (sound.followsTag present).of_typePart same
  · intro id element found child member
    have contained : context.ChildrenIn context.IsInner :=
      fun id element found => sound.children found
    have containedAfter := childrenIn_expandGroups contained root
    rw [expanded] at containedAfter
    obtain ⟨original, present, below⟩ := containedAfter id element found child member
    obtain ⟨changed, stillPresent, same⟩ := frame.of_element? present
    have sameKind : changed.kind = original.kind := congrArg Prod.fst same
    exact ⟨changed, stillPresent, sameKind ▸ below⟩
  · intro name id found
    rw [frame.simpleTypes] at found
    rw [frame.simpleType?]
    exact sound.simpleTypes found

end XmlSchema
