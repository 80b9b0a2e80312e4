import XmlSchema.Proofs.FlatTrees
import XmlSchema.Proofs.Models
import XmlSchema.Proofs.Policy.Compilation

/-!
# Limits are guards

A limit refuses a document or does nothing: what compiles under limits compiles to the same model
under all limits that allow more, `compileBytes_within`. Only the limits that the model keeps are
other ones. How far chains of simple types are followed is not a guard of this kind, for a type at
the end of a longer chain is another type; so it has to be the same.
-/

namespace XmlSchema

/-- The context of a compilation with other limits. -/
def Context.withLimits (context : Context) (limits : Limits) : Context :=
  { context with options := { context.options with limits } }

theorem Context.relax_raising {context : Context} {wider : Limits}
    (within : context.options.limits.Within wider) :
    context.relax (.raising wider) = context.withLimits wider := by
  have raised : (Relaxation.raising wider).apply context.options =
      { context.options with limits := wider } :=
    congrArg (fun limits => ({ context.options with limits } : Options)) within.raise_eq
  unfold relax withLimits
  rw [raised]

/-- What compiles under limits compiles under limits that allow more, to the same model but for the
limits that it keeps. -/
theorem compileBytes_within {limits wider : Limits} (within : limits.Within wider)
    {fallback : Fallback} {renames : Renames} {document : Bytes} {model : Model}
    (compiled : compileBytes ⟨limits, fallback, renames⟩ document = .ok model) :
    compileBytes ⟨wider, fallback, renames⟩ document =
      .ok ⟨model.context.withLimits wider, model.root⟩ := by
  have kept : model.context.options = ⟨limits, fallback, renames⟩ :=
    options_of_compileBytes compiled
  have options : (Relaxation.raising wider).apply ⟨limits, fallback, renames⟩ =
      ⟨wider, fallback, renames⟩ :=
    congrArg (fun limits => (⟨limits, fallback, renames⟩ : Options)) within.raise_eq
  have same : model.context.relax (.raising wider) = model.context.withLimits wider := by
    apply Context.relax_raising
    rw [kept]
    exact within
  rw [← options, ← same]
  exact compileBytes_relax (Relaxation.keepsLenient_raising wider) compiled

/-- A type with one ancestor. -/
def ancestorSchema : Bytes :=
  schemaDocument [
    "<s:complexType name='A'/><s:complexType name='B'><s:complexContent>",
    "<s:extension base='A'/></s:complexContent></s:complexType>"]

/-- A declaration with one ancestor, in a document that just fits all limits. -/
theorem compileBytes_within_ancestor :
    Limits.Within ⟨4, 189, 1, 10, 1⟩ .standard ∧
    ∃ model,
      compileBytes ⟨⟨4, 189, 1, 10, 1⟩, .strict, .standard⟩ ancestorSchema = .ok model ∧
      compileBytes ⟨.standard, .strict, .standard⟩ ancestorSchema =
        .ok ⟨model.context.withLimits .standard, model.root⟩ := by
  have computed : compilesFlat ⟨⟨4, 189, 1, 10, 1⟩, .strict, .standard⟩ ancestorSchema
      (fun _ => true) = true := by
    decide +kernel
  have within : Limits.Within ⟨4, 189, 1, 10, 1⟩ .standard :=
    ⟨by decide, by decide, by decide, rfl, by decide⟩
  obtain ⟨model, compiled, -⟩ := exists_of_compilesFlat computed
  exact ⟨within, model, compiled, compileBytes_within within compiled⟩

end XmlSchema
