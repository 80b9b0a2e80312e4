import XmlSchema.Annotation.Nominal

/-!
# Chains of aliases

A declaration whose nominal type is the name of another declaration is an alias of it.
`Context.aliasChain` follows aliases through the index until a name leads out of it or has been met
before.
-/

namespace XmlSchema

/-- How a chain of aliases ends. -/
inductive AliasEnd where
  | simple (name : String)
  | outside (name : String)
  /-- At a declaration that has a structure of its own or is an alias of itself. -/
  | structured
deriving DecidableEq

/-- The facets of the declarations on a chain, in order, and how the chain ends. -/
structure AliasChain where
  facets : List Facets
  ending : AliasEnd
deriving DecidableEq

set_option linter.unusedVariables false in
/-- The chain from a name in the index. The names visited are those of the chain so far. -/
def Context.aliasChain (context : Context) (nominals : Nominals) (visited : List String)
    (name : String) : AliasChain :=
  match context.elementIndex.find? name with
  | none => ⟨[], .outside name⟩
  | some id =>
      let facets := ((context.node? id).map Node.facets).getD .empty
      match nominals.find? id with
      | none => ⟨[facets], .structured⟩
      | some nominal =>
          if context.simpleTypes.contains nominal.name then ⟨[facets], .simple nominal.name⟩
          else
            match present : context.elementIndex.contains nominal.name with
            | false => ⟨[facets], .outside nominal.name⟩
            | true =>
                if nominal.name ∈ visited then ⟨[facets], .structured⟩
                else
                  let chain :=
                    context.aliasChain nominals (nominal.name :: visited) nominal.name
                  { chain with facets := facets :: chain.facets }
termination_by unvisited context.elementIndex.keys visited
decreasing_by exact unvisitedKeys_cons_lt present (by assumption)

end XmlSchema
