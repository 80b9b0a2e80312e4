import XmlSchema.Annotation.Resolution

/-!
# What decides the chains

A chain of simple types looks at the vocabulary and at simple types, and its end at nothing else.
The end of a chain of aliases is decided by the nominal types, the index and the names of simple
types; only the facets along it come from the declarations as they are. So contexts that agree in
these parts have the same chains: `simpleChain_congr`, `aliasChain_congr`.
-/

namespace XmlSchema

namespace Context

/-! ## Chains of simple types -/

theorem simpleChain_congr {left right : Context} (vocabulary : right.vocabulary = left.vocabulary)
    (types : ∀ name, right.simpleType? name = left.simpleType? name) (hops : Nat) (name : String) :
    right.simpleChain hops name = left.simpleChain hops name := by
  -- The steps left matter only where a type has a base, so the induction does not split on them.
  induction hops using Nat.strongRecOn generalizing name with
  | ind hops inductionHypothesis =>
      unfold simpleChain
      rw [types name, vocabulary]
      cases left.simpleType? name with
      | none => rfl
      | some type =>
          dsimp only
          cases type.base? with
          | none => rfl
          | some base =>
              dsimp only
              cases hops with
              | zero =>
                  dsimp only
                  rw [types]
              | succ hops =>
                  dsimp only
                  rw [inductionHypothesis hops (Nat.lt_succ_self hops)]

theorem leadsToList_congr {left right : Context}
    (types : ∀ name, right.simpleType? name = left.simpleType? name) (rounds : Nat)
    (name : String) : right.leadsToList rounds name = left.leadsToList rounds name := by
  induction rounds generalizing name with
  | zero => rfl
  | succ rounds inductionHypothesis =>
      unfold leadsToList
      rw [types name]
      cases left.simpleType? name with
      | none => rfl
      | some type =>
          dsimp only
          cases type.base? with
          | none => rfl
          | some base =>
              dsimp only
              rw [inductionHypothesis]

/-! ## Chains of aliases -/

/-- The facets of a node. Where there is no node, there are none. -/
def facetsOf (context : Context) (id : NodeId) : Facets :=
  ((context.node? id).map Node.facets).getD .empty

section Alias

variable (context : Context) (nominals : Nominals) (visited : List String) (name : String)

/-- One step along a chain of aliases. -/
theorem aliasChain_step :
    context.aliasChain nominals visited name =
      match context.elementIndex.find? name with
      | none => ⟨[], .outside name⟩
      | some id =>
          let facets := context.facetsOf id
          match nominals.find? id with
          | none => ⟨[facets], .structured⟩
          | some nominal =>
              if context.simpleTypes.contains nominal.name then ⟨[facets], .simple nominal.name⟩
              else if context.elementIndex.contains nominal.name = false then
                ⟨[facets], .outside nominal.name⟩
              else if nominal.name ∈ visited then ⟨[facets], .structured⟩
              else
                let rest := context.aliasChain nominals (nominal.name :: visited) nominal.name
                { rest with facets := facets :: rest.facets } := by
  rw [aliasChain]
  cases context.elementIndex.find? name with
  | none => rfl
  | some id =>
      dsimp only
      cases nominals.find? id with
      | none => rfl
      | some nominal =>
          dsimp only
          split
          · rfl
          · split
            · rename_i absent
              exact (if_pos absent).symm
            · rename_i present
              rw [present]
              rfl

end Alias

/-- Contexts that agree in the index and in the names of simple types have chains of aliases with
one end. Their facets are the same where those of the nodes are. -/
theorem aliasChain_congr {left right : Context} (index : right.elementIndex = left.elementIndex)
    (types : right.simpleTypes = left.simpleTypes) (nominals : Nominals) (visited : List String)
    (name : String) :
    (right.aliasChain nominals visited name).ending =
        (left.aliasChain nominals visited name).ending ∧
      ((∀ id, right.facetsOf id = left.facetsOf id) →
        right.aliasChain nominals visited name = left.aliasChain nominals visited name) := by
  rw [aliasChain_step, aliasChain_step left, index, types]
  cases left.elementIndex.find? name with
  | none => exact ⟨rfl, fun _ => rfl⟩
  | some id =>
      dsimp only
      cases nominals.find? id with
      | none => exact ⟨rfl, fun facets => by rw [facets]⟩
      | some nominal =>
          dsimp only
          split
          · exact ⟨rfl, fun facets => by rw [facets]⟩
          · split
            · exact ⟨rfl, fun facets => by rw [facets]⟩
            · split
              · exact ⟨rfl, fun facets => by rw [facets]⟩
              · obtain ⟨sameEnd, sameChain⟩ :=
                  aliasChain_congr index types nominals (nominal.name :: visited) nominal.name
                exact ⟨sameEnd, fun facets => by rw [sameChain facets, facets]⟩
termination_by unvisited left.elementIndex.keys visited
decreasing_by
  rename_i present _
  exact unvisitedKeys_cons_lt (Bool.of_not_eq_false present) (by assumption)

end Context

end XmlSchema
