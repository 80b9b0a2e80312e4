import XmlSchema.Compile
import XmlSchema.Dump.Basic
import XmlSchema.Proofs.Consistency.Passes
import XmlSchema.Proofs.FlatTrees

/-!
# Sessions

In a session, documents are read into one context, some of them only in part, and passes run over
the schemas that were read, in any order and again and again. At every point the context is
consistent and the roots are schemas, so looking a declaration up by name finds a declaration of
that name, and so does looking it up in the dump: `consistent_of_session`.
-/

namespace XmlSchema

/-- What can be done to a context from the start, and the roots of the documents read so far. -/
inductive Session (options : Options) : Context → List NodeId → Prop where
  | start : Session options (.initial options) []
  | read {before after : Context} {roots : List NodeId} {root : NodeId} {document : Bytes}
      (session : Session options before roots)
      (read : readTree before document = .ok (after, root)) : Session options after (root :: roots)
  /-- A reading that halts leaves what it has entered up to then. -/
  | abandon {before : Context} {roots : List NodeId} {document : Bytes} {halt : Halt Error}
      (session : Session options before roots) (halted : readTree before document = .error halt) :
      Session options halt.context roots
  | pass {before : Context} {roots : List NodeId} {root : NodeId}
      (session : Session options before roots) (member : root ∈ roots) (pass : Pass) :
      Session options (endContext (pass.run root before)) roots

namespace Session

variable {options : Options} {context : Context} {roots : List NodeId} {root : NodeId}

/-- One pass after the other over one schema, each from where the one before ended. -/
theorem passes (session : Session options context roots) (member : root ∈ roots)
    (passes : List Pass) :
    Session options
      (passes.foldl (fun context pass => endContext (pass.run root context)) context) roots := by
  induction passes generalizing context with
  | nil => exact session
  | cons pass rest inductionHypothesis => exact inductionHypothesis (session.pass member pass)

theorem consistent (session : Session options context roots) : context.Consistent := by
  induction session with
  | start => exact Context.consistent_initial options
  | @read before after roots root document _ read inductionHypothesis =>
      have consistent := inductionHypothesis.readTree document
      rw [read] at consistent
      exact consistent
  | @abandon before roots document halt _ halted inductionHypothesis =>
      have consistent := inductionHypothesis.readTree document
      rw [halted] at consistent
      exact consistent
  | pass _ _ pass inductionHypothesis => exact inductionHypothesis.runPass _ pass

/-- Every root of a session is a schema and stays one. -/
theorem isSchema (session : Session options context roots) :
    ∀ root ∈ roots, context.IsSchema root := by
  induction session with
  | start => exact fun _ member => absurd member List.not_mem_nil
  | @read before after roots root document _ read inductionHypothesis =>
      have written := written_readTree before document
      rw [read] at written
      refine List.forall_mem_cons.2 ⟨isSchema_readTree read, fun root member => ?_⟩
      exact (inductionHypothesis root member).mono written.extends
  | @abandon before roots document halt _ halted inductionHypothesis =>
      have written := written_readTree before document
      rw [halted] at written
      exact fun root member => (inductionHypothesis root member).mono written.extends
  | pass _ _ pass inductionHypothesis =>
      exact fun root member =>
        (inductionHypothesis root member).mono (Context.extends_runPass _ _ pass)

end Session

/-! ## Lookups -/

namespace Context.Consistent

variable {context : Context} (consistent : context.Consistent) (root : NodeId) (name : String)

include consistent in
/-- What is looked up by name has the name. -/
theorem name_of_element? {view : View} (found : (⟨context, root⟩ : Model).element? name = some view) :
    view.element.name = name := by
  obtain ⟨id, entered, seen⟩ := Option.bind_eq_some_iff.1 found
  obtain ⟨element, present, rfl⟩ := Option.map_eq_some_iff.1 seen
  obtain ⟨declared, isDeclared, named⟩ := consistent.elementIndex.fits entered
  cases present.symm.trans isDeclared
  exact named

include consistent in
/-- Exactly the names in the index are found. -/
theorem isSome_element? :
    ((⟨context, root⟩ : Model).element? name).isSome = context.elementIndex.contains name := by
  unfold Table.contains Model.element?
  cases entered : context.elementIndex.find? name with
  | none => rfl
  | some id =>
      obtain ⟨element, present, -⟩ := consistent.elementIndex.fits entered
      unfold Model.view?
      rw [Option.bind_some, present]
      rfl

/-- Entries that are declarations of their names are found in a list of them as they are looked up.
-/
theorem find?_entries (model : Model) (name : String) (entries : List (String × NodeId))
    (declares : ∀ entry ∈ entries, model.context.Declares entry.1 entry.2) :
    (((entries.map Prod.snd).filterMap model.view?).map (Dump.ElementEntry.ofView model)).find?
        (·.name == name) =
      ((entries.lookup name).bind model.view?).map (Dump.ElementEntry.ofView model) := by
  induction entries with
  | nil => rfl
  | cons entry rest inductionHypothesis =>
      obtain ⟨first, later⟩ := List.forall_mem_cons.1 declares
      obtain ⟨element, present, named⟩ := first
      have seen : model.view? entry.2 = some ⟨entry.2, element⟩ := by
        unfold Model.view?
        rw [present]
        rfl
      rw [Table.lookup_cons, List.map_cons, List.filterMap_cons, seen]
      dsimp only
      rw [List.map_cons, List.find?_cons]
      have entryName : (Dump.ElementEntry.ofView model ⟨entry.2, element⟩).name = entry.1 := named
      rw [entryName]
      by_cases same : name = entry.1
      · rw [if_pos same, beq_iff_eq.2 same.symm, Option.bind_some, seen]
        rfl
      · rw [if_neg same, beq_false_of_ne (Ne.symm same)]
        exact inductionHypothesis later

include consistent in
/-- The dump has an entry for a name exactly when the name is found, and for the same declaration. -/
theorem element?_ofModel :
    (Dump.ofModel ⟨context, root⟩).element? name =
      ((⟨context, root⟩ : Model).element? name).map (.ofView ⟨context, root⟩) :=
  find?_entries ⟨context, root⟩ name context.elementIndex.entries
    fun _ member => consistent.elementIndex.of_mem_entries member

end Context.Consistent

/-- At every point of a session, whatever documents were read or abandoned and whatever passes ran,
every handle in a list of children, in a table or as a root is that of a node of the right kind, and
every key is the name of what it leads to. This goes for the handles in use in the middle of the
next reading, too. So a declaration is found under its name, in the model and in the dump. -/
theorem consistent_of_session {options : Options} {context : Context} {roots : List NodeId}
    (session : Session options context roots) :
    context.Consistent ∧ (∀ root ∈ roots, context.IsSchema root) ∧
      (∀ document events assembly, (Assembly.start context).run document events = .ok assembly →
        assembly.context.Consistent ∧
          ∀ id ∈ assembly.handles, (assembly.context.node? id).isSome = true) ∧
      ∀ (root : NodeId) (name : String),
        ((⟨context, root⟩ : Model).element? name).isSome = context.elementIndex.contains name ∧
        (∀ view, (⟨context, root⟩ : Model).element? name = some view →
          view.element.name = name) ∧
        (Dump.ofModel ⟨context, root⟩).element? name =
          ((⟨context, root⟩ : Model).element? name).map (.ofView ⟨context, root⟩) := by
  have consistent := session.consistent
  refine ⟨consistent, session.isSchema, fun document events assembly taken => ⟨?_, ?_⟩,
    fun root name => ⟨?_, fun view found => ?_, ?_⟩⟩
  · have written := (Assembly.reads_run document events (Assembly.standing_start context)).written
    rw [taken] at written
    exact consistent.written written
  · exact isSome_node?_of_run taken
  · exact consistent.isSome_element? root name
  · exact consistent.name_of_element? root name found
  · exact consistent.element?_ofModel root name

/-- Whether a document is read and passes run over it, after the reading of another document has been
abandoned, to a context that passes a check. -/
def readsAfterAbandoned (options : Options) (abandoned document : Bytes) (passes : List Pass)
    (check : Context → NodeId → Bool) : Bool :=
  match readTree (.initial options) abandoned with
  | .ok _ => false
  | .error halt =>
      match readTree halt.context document with
      | .error _ => false
      | .ok (context, root) =>
          check (passes.foldl (fun context pass => endContext (pass.run root context)) context) root

theorem exists_session_of_readsAfterAbandoned {options : Options} {abandoned document : Bytes}
    {passes : List Pass} {check : Context → NodeId → Bool}
    (reads : readsAfterAbandoned options abandoned document passes check = true) :
    ∃ context root, Session options context [root] ∧ check context root = true := by
  unfold readsAfterAbandoned at reads
  split at reads
  · cases reads
  · rename_i halt halted
    split at reads
    · cases reads
    · rename_i context root read
      have session : Session options context [root] := (Session.start.abandon halted).read read
      exact ⟨_, root, session.passes (List.mem_singleton_self root) passes, reads⟩

/-- A document breaks off inside an element. Another one is read into the same context, and one of its
attributes is renamed: it is found under its new name, in a declaration that is found. -/
theorem consistent_of_session_renamed :
    ∃ (context : Context) (root : NodeId) (view : View), Session .standard context [root] ∧
      context.Consistent ∧ context.IsSchema root ∧
      (⟨context, root⟩ : Model).element? "T" = some view ∧ view.element.name = "T" ∧
      view.element.attributes.keys = ["a_attr"] ∧ view.element.attributes.Named ∧
      (Dump.ofModel ⟨context, root⟩).element? "T" = some (.ofView ⟨context, root⟩ view) := by
  have computed : readsAfterAbandoned .standard
      (Text.Utf8.encode "<s:schema><s:element name='x'>")
      (schemaDocument ["<s:complexType name='T'><s:sequence><s:element name='a'/></s:sequence>",
        "<s:attribute name='a'/></s:complexType>"])
      [.indexElements, .completeDeclarations, .separateAttributes]
      (fun context root => ((⟨context, root⟩ : Model).element? "T").any fun view =>
        decide (view.element.attributes.keys = ["a_attr"])) = true := by
    decide +kernel
  obtain ⟨context, root, session, checked⟩ := exists_session_of_readsAfterAbandoned computed
  obtain ⟨view, found, keys⟩ := (Option.any_eq_true _ _).1 checked
  obtain ⟨consistent, schemas, -, lookups⟩ := consistent_of_session session
  obtain ⟨-, named, dumped⟩ := lookups root "T"
  obtain ⟨id, -, seen⟩ := Option.bind_eq_some_iff.1 found
  obtain ⟨element, present, rfl⟩ := Option.map_eq_some_iff.1 seen
  rw [found] at dumped
  exact ⟨context, root, _, session, consistent, schemas root (List.mem_singleton_self root), found,
    named _ found, of_decide_eq_true keys, (consistent.keyed present).attributes, dumped⟩

end XmlSchema
