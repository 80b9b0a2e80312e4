import Mathlib.Data.List.Nodup
import Mathlib.Data.List.TakeDrop
import XmlSchema.Proofs.Resolution.SimpleTypes

/-!
# Simple types recorded behind a declaration

Along with mixed content, the simple types behind a declaration are recorded. The way of a chain that
leaves the simple types is a list of names, `Lists`, and what is recorded for a declaration with one
simple type is the beginning of that way, `simpleBases_withSimpleBases`. The bound on it counts the
name outside as well, which resolution does not: `simpleBases_of_compileBytes`.
-/

namespace XmlSchema

/-- The names to which the bases lead from a name on, in order, as far as they lead. -/
def Context.Lists (context : Context) (start : String) (way : List String) : Prop :=
  ∀ place : Nat, way[place]? = context.baseAfter? place start

namespace Context

variable {context : Context} {start exit : String} {way names visited : List String}
  {steps : Nat}

/-! ## The way of a chain -/

theorem lists_of_last (last : context.baseLink? start = none) : context.Lists start [start] := by
  intro place
  cases place with
  | zero => rfl
  | succ place =>
      unfold baseAfter? follow?
      rw [last]
      rfl

theorem Lists.cons {next : String} (lists : context.Lists next way)
    (link : context.baseLink? start = some next) : context.Lists start (start :: way) := by
  intro place
  cases place with
  | zero => rfl
  | succ place =>
      unfold baseAfter? follow?
      rw [link]
      exact lists place

/-- A way begins with its start, and goes on where its base leads. -/
theorem Lists.eq_cons (lists : context.Lists start way) :
    ∃ rest, way = start :: rest ∧ ∀ next, context.baseLink? start = some next →
      context.Lists next rest := by
  cases way with
  | nil => cases lists 0
  | cons first rest =>
      cases lists 0
      refine ⟨rest, rfl, fun next link place => ?_⟩
      have later := lists (place + 1)
      unfold baseAfter? follow? at later
      rw [link] at later
      exact later

/-- There is one way. -/
theorem Lists.unique {other : List String} (lists : context.Lists start way)
    (others : context.Lists start other) : way = other :=
  List.ext_getElem? fun place => (lists place).trans (others place).symm

theorem Lists.eq_singleton (lists : context.Lists start way)
    (last : context.baseLink? start = none) : way = [start] :=
  lists.unique (lists_of_last last)

/-- What ends does not come back to a name. -/
theorem Lists.nodup (lists : context.Lists start way) : way.Nodup := by
  rw [List.nodup_iff_getElem?_ne_getElem?]
  intro earlier later sooner inside same
  obtain ⟨name, found⟩ : ∃ name, way[later]? = some name := ⟨_, List.getElem?_eq_getElem inside⟩
  obtain ⟨place, onward⟩ := exists_follow?_of_cycle sooner
    ((lists earlier).symm.trans (same.trans found)) ((lists later).symm.trans found) way.length
  have ended := (lists way.length).trans onward
  rw [List.getElem?_eq_none (Nat.le_refl _)] at ended
  cases ended

/-- The way of a chain that leaves the simple types goes through the names of the types met, to the
name outside. -/
theorem exists_lists_of_leaves (hops : Nat) (start : String) {types : List SimpleType}
    (leaves : context.simpleChain hops start = ⟨types, .leaves exit⟩) : ∃ names,
    names.map context.simpleType? = types.map some ∧ context.Lists start (names ++ [exit]) := by
  cases found : context.simpleType? start with
  | none =>
      rw [simpleChain_of_absent found] at leaves
      cases leaves
      exact ⟨[], rfl, lists_of_last (baseLink?_of_absent found)⟩
  | some type =>
      cases based : type.base? with
      | none =>
          rw [simpleChain_of_baseless found based] at leaves
          have ending := congrArg SimpleChain.ending leaves
          dsimp only at ending
          split at ending <;> cases ending
      | some base =>
          have link : context.baseLink? start = some (context.vocabulary.tableName base) := by
            rw [baseLink?_of_declared found, based]
            rfl
          cases hops with
          | zero =>
              rw [simpleChain_zero found based] at leaves
              obtain ⟨rfl, ending⟩ := SimpleChain.mk.inj leaves
              split at ending
              · cases ending
              · rename_i outside
                cases ending
                have absent := Option.not_isSome_iff_eq_none.1 outside
                exact ⟨[start], by simp [found],
                  (lists_of_last (baseLink?_of_absent absent)).cons link⟩
          | succ hops =>
              rw [simpleChain_succ found based] at leaves
              obtain ⟨rfl, ending⟩ := SimpleChain.mk.inj leaves
              obtain ⟨names, met, lists⟩ := exists_lists_of_leaves hops
                (context.vocabulary.tableName base) (congrArg (SimpleChain.mk _) ending)
              exact ⟨start :: names, by simp [found, met], lists.cons link⟩

/-! ## What is recorded -/

/-- The ancestors of a name are the first names behind it on its way, as long as none of them was
visited. -/
theorem simpleAncestors_eq (lists : context.Lists start way)
    (fresh : ∀ base ∈ visited, context.vocabulary.tableName base ∉ way.tail) :
    context.simpleAncestors visited steps ((context.simpleType? start).bind SimpleType.base?) =
      way.tail.take steps := by
  induction steps generalizing start way visited with
  | zero =>
      rw [List.take_zero]
      cases (context.simpleType? start).bind SimpleType.base? <;> rfl
  | succ steps inductionHypothesis =>
      cases written : (context.simpleType? start).bind SimpleType.base? with
      | none =>
          have last : context.baseLink? start = none := by
            unfold baseLink?
            rw [written]
            rfl
          rw [lists.eq_singleton last]
          rfl
      | some base =>
          have link : context.baseLink? start = some (context.vocabulary.tableName base) := by
            unfold baseLink?
            rw [written]
            rfl
          obtain ⟨rest, rfl, onward⟩ := lists.eq_cons
          have behind := onward _ link
          obtain ⟨later, rfl, -⟩ := behind.eq_cons
          rw [List.tail_cons] at fresh
          have new : base ∉ visited := fun seen => fresh base seen (List.mem_cons_self ..)
          have freshAfter : ∀ other ∈ base :: visited,
              context.vocabulary.tableName other ∉ later := by
            intro other member again
            rcases List.mem_cons.1 member with rfl | before
            · exact (List.nodup_cons.1 behind.nodup).1 again
            · exact fresh other before (List.mem_cons_of_mem _ again)
          rw [simpleAncestors, if_neg new]
          dsimp only
          rw [inductionHypothesis behind freshAfter]
          rfl

end Context

theorem simpleBases_foldl {names : List String} {element : Element}
    (apart : (element.simpleBases ++ names).Nodup) :
    (names.foldl Element.addSimpleBase element).simpleBases = element.simpleBases ++ names := by
  induction names generalizing element with
  | nil => exact (List.append_nil _).symm
  | cons name rest inductionHypothesis =>
      have new : name ∉ element.simpleBases := fun member =>
        List.disjoint_of_nodup_append apart member (List.mem_cons_self ..)
      have added : (element.addSimpleBase name).simpleBases = element.simpleBases ++ [name] := by
        unfold Element.addSimpleBase
        rw [if_neg new]
      have apartAfter : ((element.addSimpleBase name).simpleBases ++ rest).Nodup := by
        rw [added, List.append_assoc]
        exact apart
      rw [List.foldl_cons, inductionHypothesis apartAfter, added, List.append_assoc]
      rfl

/-- For a declaration without a base and with one simple type, the beginning of the way from that
type is recorded. -/
theorem simpleBases_withSimpleBases {context : Context} {element : Element} {start : String}
    {way : List String} (baseless : element.base? = none) (alone : element.simpleBases = [start])
    (lists : context.Lists start way) :
    (context.withSimpleBases element).simpleBases =
      way.take (context.options.limits.simpleTypeHops + 1) := by
  obtain ⟨rest, rfl, -⟩ := lists.eq_cons
  have ancestors : context.simpleAncestors [] context.options.limits.simpleTypeHops
      ((context.simpleType? start).bind SimpleType.base?) =
        rest.take context.options.limits.simpleTypeHops :=
    Context.simpleAncestors_eq lists nofun
  have apart : (element.simpleBases ++ rest.take context.options.limits.simpleTypeHops).Nodup := by
    rw [alone, List.singleton_append, ← List.take_succ_cons]
    exact lists.nodup.sublist (List.take_sublist ..)
  unfold Context.withSimpleBases
  rw [baseless]
  dsimp only
  rw [alone]
  dsimp only [List.head?_cons]
  rw [ancestors, simpleBases_foldl apart, alone, List.take_succ_cons]
  rfl

/-! ## The pass over a tree -/

/-- The part of a declaration that decides which simple types are recorded for it. -/
def Element.baseNames (element : Element) : Option String × List String :=
  (element.base?, element.simpleBases)

section Pass

variable {change : Change} {origin context : Context} {root id : NodeId} {start : String}
  {way : List String} {state result : Context × List (NodeId × List NodeId)}

/-- Where the bases lead is decided by the simple types. -/
theorem Frame.lists_iff (frame : Frame change origin context) :
    context.Lists start way ↔ origin.Lists start way := by
  have links : context.baseLink? = origin.baseLink? := by
    funext name
    unfold Context.baseLink?
    rw [frame.vocabulary, frame.namedSimpleType?]
  unfold Context.Lists Context.baseAfter?
  rw [links]

/-- One visit records simple types for the declaration visited, after ancestors were made mixed. -/
theorem exists_of_equalizeElement {visit : NodeId}
    (taken : equalizeElement state visit = .ok result) :
    ∃ equalized, Frame (.keeping Element.baseNames) state.1 equalized ∧
      result.1 = equalized.modifyElement visit equalized.withSimpleBases := by
  obtain ⟨current, chains⟩ := state
  unfold equalizeElement at taken
  dsimp only at taken
  split at taken
  · cases taken
  · rename_i chain climbed
    cases taken
    refine ⟨current.equalizeMixed (visit :: chain), ?_, rfl⟩
    exact holds_equalizeMixed
      (fun frame id => frame.trans (.modifyElement _ id fun _ _ => rfl))
      (.refl (.keeping Element.baseNames) current) _

/-- A visit leaves what is recorded for other declarations as it is. -/
theorem baseNames_equalizeElement {visit : NodeId} (taken : equalizeElement state visit = .ok result)
    (different : id ≠ visit) :
    (result.1.element? id).map Element.baseNames = (state.1.element? id).map Element.baseNames := by
  obtain ⟨equalized, frame, next⟩ := exists_of_equalizeElement taken
  rw [next, element?_modifyElement_other different]
  exact frame.map_element? id

theorem baseNames_foldlM_equalizeElement {visits : List NodeId} (unvisited : id ∉ visits)
    (completed : visits.foldlM equalizeElement state = .ok result) :
    (result.1.element? id).map Element.baseNames = (state.1.element? id).map Element.baseNames := by
  induction visits generalizing state with
  | nil => rw [foldlM_nil_eq_ok_iff.1 completed]
  | cons visit rest inductionHypothesis =>
      obtain ⟨next, taken, later⟩ := foldlM_cons_eq_ok_iff.1 completed
      rw [List.mem_cons, not_or] at unvisited
      exact (inductionHypothesis unvisited.2 later).trans
        (baseNames_equalizeElement taken unvisited.1)

/-- In the course of the visits, the beginning of the way is recorded for the declaration. -/
theorem simpleBases_foldlM_equalizeElement (lists : origin.Lists start way)
    (frame : Frame .any origin state.1) {visits : List NodeId} (once : visits.Nodup)
    (member : id ∈ visits)
    (alone : (state.1.element? id).map Element.baseNames = some (none, [start]))
    (completed : visits.foldlM equalizeElement state = .ok result) :
    (result.1.element? id).map Element.simpleBases =
      some (way.take (origin.options.limits.simpleTypeHops + 1)) := by
  induction visits generalizing state with
  | nil => cases member
  | cons visit rest inductionHypothesis =>
      obtain ⟨next, taken, later⟩ := foldlM_cons_eq_ok_iff.1 completed
      obtain ⟨fresh, onceLater⟩ := List.nodup_cons.1 once
      rcases List.mem_cons.1 member with rfl | memberLater
      · obtain ⟨equalized, equalizing, visited⟩ := exists_of_equalizeElement taken
        have equalizedFrame : Frame .any origin equalized :=
          frame.trans (equalizing.mono fun _ => trivial)
        obtain ⟨element, found, names⟩ : ∃ element, equalized.element? id = some element ∧
            element.baseNames = (none, [start]) :=
          Option.map_eq_some_iff.1 ((equalizing.map_element? id).trans alone)
        obtain ⟨baseless, single⟩ := Prod.mk.inj names
        have recorded := simpleBases_withSimpleBases baseless single (equalizedFrame.lists_iff.2 lists)
        have kept := congrArg (Option.map Prod.snd) (baseNames_foldlM_equalizeElement fresh later)
        rw [Option.map_map, Option.map_map, visited, element?_modifyElement_self found] at kept
        refine kept.trans (congrArg some ?_)
        rw [← equalizedFrame.options]
        exact recorded
      · have different : id ≠ visit := fun same => fresh (same ▸ memberLater)
        have step : Frame .any state.1 (endContext ((equalizeElement state visit).map Prod.fst)) :=
          frame_equalizeElement (fun _ => trivial) (fun _ _ => trivial) state visit
        rw [taken] at step
        exact inductionHypothesis (frame.trans step) onceLater memberLater
          ((baseNames_equalizeElement taken different).trans alone) later

/-- What the pass records for a declaration without a base and with one simple type. -/
theorem simpleBases_checkMixedContent {mixed : Context} (lists : context.Lists start way)
    (member : id ∈ context.walk root)
    (alone : (context.element? id).map Element.baseNames = some (none, [start]))
    (completed : checkMixedContent root context = .ok mixed) :
    (mixed.element? id).map Element.simpleBases =
      some (way.take (context.options.limits.simpleTypeHops + 1)) := by
  unfold checkMixedContent at completed
  split at completed
  · cases completed
  · rename_i equalized chains visited
    cases completed
    have flags : ∀ element : Element, (Change.keeping Element.simpleBases).holds element
        { element with mixedMismatch := true } := fun _ => rfl
    have checks : Frame (.keeping Element.simpleBases) equalized
        (chains.reverse.foldl (fun context entry => context.checkMixed entry.1 entry.2) equalized) :=
      List.foldlRecOn chains.reverse _ (.refl _ equalized) fun _ frame entry _ =>
        holds_checkMixed
          (fun frame link _ _ => (frame.trans
            (.modifyElement _ link fun element _ => flags element)).trans (.warnings _ _ _))
          frame entry.1 entry.2
    have started : Frame .any context (context, ([] : List (NodeId × List NodeId))).1 :=
      .refl .any context
    exact (checks.map_element? id).trans (simpleBases_foldlM_equalizeElement lists started
      (Arena.nodup_walk context.arena root) member alone visited)

end Pass

/-- Take a declaration below the root that has no base and, before mixed content is checked, one
simple type. If the chain from that type leaves the simple types within the bound, the recorded simple
types are the beginning of its way: the names of the types it meets and the name outside, but only
one name more than the bound. So the whole way is recorded exactly if the number of types is within
the bound, which the chain exceeds by one at most. -/
theorem simpleBases_of_compileBytes {options : Options} {document : Bytes} {model : Model}
    (compiled : compileBytes options document = .ok model) :
    ∃ surveyed typed completed separated attributed mixed,
      survey options document = .ok (surveyed, model.root) ∧
      Stages model.root surveyed typed completed separated attributed mixed model.context ∧
      ∀ id element start types exit, model.context.arena.Reaches model.root id →
        attributed.element? id = some element → element.base? = none →
        element.simpleBases = [start] →
        model.context.simpleChain model.context.options.limits.simpleTypeHops start =
          ⟨types, .leaves exit⟩ →
        ∃ final names, model.context.element? id = some final ∧
          names.map model.context.simpleType? = types.map some ∧
          model.context.Lists start (names ++ [exit]) ∧
          final.simpleBases =
            (names ++ [exit]).take (model.context.options.limits.simpleTypeHops + 1) ∧
          (final.simpleBases = names ++ [exit] ↔
            types.length ≤ model.context.options.limits.simpleTypeHops) := by
  obtain ⟨surveyed, typed, completed, separated, attributed, mixed, found, stages⟩ :=
    exists_stages compiled
  refine ⟨surveyed, typed, completed, separated, attributed, mixed, found, stages, ?_⟩
  intro id element start types exit reached present baseless alone leaves
  have frame : Frame (.keeping Element.children) attributed model.context :=
    stages.frame_afterAttributes (fun _ => rfl)
      (part_addSimpleBase Element.children fun _ _ => rfl) (fun _ => rfl) fun _ => rfl
  obtain ⟨final, foundFinal, -⟩ := frame.of_element? present
  obtain ⟨names, met, lists⟩ := Context.exists_lists_of_leaves _ start leaves
  have member : id ∈ attributed.walk model.root := by
    have sameWalk : model.context.walk model.root = attributed.walk model.root :=
      Arena.walk_congr frame.map_element? model.root
    rw [← sameWalk]
    exact Arena.mem_walk_iff.2 ⟨reached, Option.isSome_of_eq_some foundFinal⟩
  have names? : (attributed.element? id).map Element.baseNames = some (none, [start]) := by
    rw [present, ← baseless, ← alone]
    rfl
  have marking : Frame (.keeping Element.simpleBases) mixed model.context := by
    rw [← stages.extension]
    exact frame_markExtended (fun _ => rfl) model.root mixed
  have collected := simpleBases_checkMixedContent (frame.lists_iff.1 lists) member names?
    stages.mixedContent
  rw [← frame.options, ← marking.map_element? id, foundFinal] at collected
  have recorded := Option.some.inj collected
  have sameLength : names.length = types.length := by
    rw [← List.length_map, met, List.length_map]
  refine ⟨final, names, foundFinal, met, lists, recorded, ?_⟩
  rw [recorded, List.take_eq_self_iff, List.length_append, List.length_singleton, sameLength,
    Nat.succ_le_succ_iff]

/-! ## Two bounds -/

/-- Whether a document without references to groups compiles so that a check passes the context
before mixed content is checked, and the model. -/
def collectsFlat (options : Options) (document : Bytes) (check : Context → Model → Bool) : Bool :=
  surveysFlat options document fun surveyed root =>
    match (Pass.afterSurvey.take 4).foldlM (fun context pass => pass.run root context) surveyed with
    | .error _ => false
    | .ok attributed =>
        match (Pass.afterSurvey.drop 4).foldlM (fun context pass => pass.run root context)
          attributed with
        | .error _ => false
        | .ok final => check attributed ⟨final, root⟩

theorem exists_of_collectsFlat {options : Options} {document : Bytes}
    {check : Context → Model → Bool} (collects : collectsFlat options document check = true) :
    ∃ model, compileBytes options document = .ok model ∧
      ∀ surveyed typed completed separated attributed mixed,
        survey options document = .ok (surveyed, model.root) →
        Stages model.root surveyed typed completed separated attributed mixed model.context →
          check attributed model = true := by
  obtain ⟨surveyed, root, found, passes⟩ := exists_of_surveysFlat collects
  split at passes
  · cases passes
  · rename_i attributed early
    split at passes
    · cases passes
    · rename_i final late
      have completed : Pass.afterSurvey.foldlM (fun context pass => pass.run root context) surveyed =
          .ok final := foldlM_append_eq_ok_iff.2 ⟨attributed, early, late⟩
      refine ⟨⟨final, root⟩, ?_, ?_⟩
      · rw [compileBytes_eq_survey, found]
        dsimp only
        rw [completed]
      · intro again typed completed separated before mixed foundAgain stages
        cases found.symm.trans foundAgain
        have sameEarly : (Pass.afterSurvey.take 4).foldlM
            (fun context pass => pass.run root context) surveyed = .ok before :=
          foldlM_cons_eq_ok_iff.2 ⟨typed, stages.types, foldlM_cons_eq_ok_iff.2
            ⟨completed, stages.completion, foldlM_cons_eq_ok_iff.2
              ⟨separated, stages.separation, foldlM_cons_eq_ok_iff.2
                ⟨before, stages.attributeTypes, foldlM_nil_eq_ok_iff.2 rfl⟩⟩⟩⟩
        cases early.symm.trans sameEarly
        exact passes

/-- An element whose type has another one behind it, which restricts the string type. -/
def restrictedTwice : Bytes :=
  schemaDocument
    ["<s:simpleType name='T'><s:restriction base='U'/></s:simpleType>",
      "<s:simpleType name='U'><s:restriction base='s:string'/></s:simpleType>",
      "<s:element name='e' type='T'/>"]

/-- The options with a bound on chains. -/
def boundedOptions (hops : Nat) : Options := ⟨⟨1000, 1000000, 100, hops, 100⟩, .lenient, .standard⟩

/-- Whether the element has its type alone before mixed content is checked, and the chain from there
leaves the simple types within a bound. -/
def startsTwice (hops : Nat) (attributed : Context) (model : Model) : Bool :=
  (model.context.walk model.root).contains ⟨3⟩ &&
    (attributed.element? ⟨3⟩).any (fun element => decide (element.baseNames = (none, ["T"]))) &&
    decide (model.context.baseLink? "T" = some "U" ∧
      model.context.baseLink? "U" = some "s:string" ∧ model.context.baseLink? "s:string" = none) &&
    decide (model.context.options.limits.simpleTypeHops = hops ∧
      (model.context.simpleChain hops "T").ending = .leaves "s:string")

theorem exists_of_startsTwice {hops : Nat} {attributed : Context} {model : Model}
    (starts : startsTwice hops attributed model = true) :
    ∃ element types, model.context.arena.Reaches model.root ⟨3⟩ ∧
      attributed.element? ⟨3⟩ = some element ∧ element.base? = none ∧
      element.simpleBases = ["T"] ∧ model.context.options.limits.simpleTypeHops = hops ∧
      model.context.simpleChain model.context.options.limits.simpleTypeHops "T" =
        ⟨types, .leaves "s:string"⟩ ∧
      model.context.Lists "T" ["T", "U", "s:string"] := by
  unfold startsTwice at starts
  simp only [Bool.and_eq_true, Option.any_eq_true, List.contains_iff_mem, decide_eq_true_eq]
    at starts
  obtain ⟨⟨⟨member, element, found, names⟩, first, second, last⟩, bound, ending⟩ := starts
  obtain ⟨baseless, alone⟩ := Prod.mk.inj names
  refine ⟨element, (model.context.simpleChain hops "T").types, (Arena.mem_walk_iff.1 member).1, found,
    baseless, alone, bound, ?_, ((Context.lists_of_last last).cons second).cons first⟩
  rw [bound, ← ending]

/-- With two links allowed, the whole way of the two types is recorded. -/
theorem simpleBases_of_compileBytes_two :
    ∃ model final, compileBytes (boundedOptions 2) restrictedTwice = .ok model ∧
      model.context.element? ⟨3⟩ = some final ∧ final.simpleBases = ["T", "U", "s:string"] := by
  have computed : collectsFlat (boundedOptions 2) restrictedTwice (startsTwice 2) = true := by
    decide +kernel
  obtain ⟨model, compiled, checked⟩ := exists_of_collectsFlat computed
  obtain ⟨_, _, _, _, attributed, _, found, stages, recorded⟩ := simpleBases_of_compileBytes compiled
  obtain ⟨element, types, reached, present, baseless, alone, bound, leaves, way⟩ :=
    exists_of_startsTwice (checked _ _ _ _ _ _ found stages)
  obtain ⟨final, names, foundFinal, -, lists, simpleBases, -⟩ :=
    recorded ⟨3⟩ element "T" types "s:string" reached present baseless alone leaves
  rw [bound, lists.unique way] at simpleBases
  exact ⟨model, final, compiled, foundFinal, simpleBases⟩

/-- With one link allowed, the chain still leaves the simple types at the string type, but the
string type is not recorded. -/
theorem simpleBases_lack_exit :
    ∃ model surveyed typed completed separated attributed mixed element types final,
      compileBytes (boundedOptions 1) restrictedTwice = .ok model ∧
      survey (boundedOptions 1) restrictedTwice = .ok (surveyed, model.root) ∧
      Stages model.root surveyed typed completed separated attributed mixed model.context ∧
      model.context.arena.Reaches model.root ⟨3⟩ ∧ attributed.element? ⟨3⟩ = some element ∧
      element.base? = none ∧ element.simpleBases = ["T"] ∧
      model.context.simpleChain model.context.options.limits.simpleTypeHops "T" =
        ⟨types, .leaves "s:string"⟩ ∧
      model.context.Lists "T" ["T", "U", "s:string"] ∧
      model.context.element? ⟨3⟩ = some final ∧ final.simpleBases = ["T", "U"] := by
  have computed : collectsFlat (boundedOptions 1) restrictedTwice (fun attributed model =>
      startsTwice 1 attributed model && (model.context.element? ⟨3⟩).any fun final =>
        decide (final.simpleBases = ["T", "U"])) = true := by
    decide +kernel
  obtain ⟨model, compiled, checked⟩ := exists_of_collectsFlat computed
  obtain ⟨surveyed, typed, completed, separated, attributed, mixed, found, stages⟩ :=
    exists_stages compiled
  have facts := checked _ _ _ _ _ _ found stages
  rw [Bool.and_eq_true, Option.any_eq_true] at facts
  obtain ⟨starts, final, foundFinal, simpleBases⟩ := facts
  obtain ⟨element, types, reached, present, baseless, alone, -, leaves, way⟩ :=
    exists_of_startsTwice starts
  exact ⟨model, surveyed, typed, completed, separated, attributed, mixed, element, types, final,
    compiled, found, stages, reached, present, baseless, alone, leaves, way, foundFinal,
    of_decide_eq_true simpleBases⟩

end XmlSchema
