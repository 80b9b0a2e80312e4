import XmlSchema.Annotation.Pass
import XmlSchema.Proofs.Chains
import XmlSchema.Proofs.Inheritance.Lineage
import XmlSchema.Proofs.PassFrames
import XmlSchema.Proofs.Policy.Reading

/-!
# The passes under relaxed options

A pass that goes through goes through under relaxed options too, and changes the same. Limits are
looked at where groups are nested and where bases are followed, and there they refuse or do nothing.
The two passes that resolve types look at the policy too, in `Context.fallBack` alone. There the
strict policy gives no name at all, so it is enough that the lenient policy stays lenient.
-/

namespace XmlSchema

variable {relaxation : Relaxation} {context next : Context}

/-! ## Chains and tables -/

theorem groupReference?_relax (id : NodeId) :
    (context.relax relaxation).groupReference? id = context.groupReference? id := rfl

theorem aliasChain_relax (nominals : Nominals) (visited : List String) (name : String) :
    (context.relax relaxation).aliasChain nominals visited name =
      context.aliasChain nominals visited name := by
  refine (Context.aliasChain_congr ?_ ?_ nominals visited name).2 ?_
  · rfl
  · rfl
  · exact fun _ => rfl

theorem simpleChain_relax (hops : Nat) (name : String) :
    (context.relax relaxation).simpleChain hops name = context.simpleChain hops name := by
  refine Context.simpleChain_congr ?_ ?_ hops name
  · rfl
  · exact fun _ => rfl

theorem isListType_relax (name : String) :
    (context.relax relaxation).isListType name = context.isListType name := by
  unfold Context.isListType
  rw [Context.simpleTypeHops_relax]
  refine Context.leadsToList_congr ?_ _ name
  exact fun _ => rfl

theorem ancestors_relax {id : NodeId} {chain : List NodeId}
    (climbed : context.ancestors id = .ok chain) :
    (context.relax relaxation).ancestors id = .ok chain := by
  obtain ⟨lineage, short⟩ := Context.ancestors_eq_ok_iff.1 climbed
  have parents : ∀ id, (context.relax relaxation).parent? id = context.parent? id := fun _ => rfl
  refine Context.ancestors_eq_ok_iff.2 ⟨(Context.lineage_congr parents).2 lineage, ?_⟩
  exact Nat.le_trans short (relaxation.within context.options).baseDepth

theorem simpleAncestors_relax (visited : List String) (steps : Nat) (base? : Option String) :
    (context.relax relaxation).simpleAncestors visited steps base? =
      context.simpleAncestors visited steps base? := by
  induction steps generalizing visited base? with
  | zero => cases base? <;> rfl
  | succ steps inductionHypothesis =>
      cases base? with
      | none => rfl
      | some base =>
          unfold Context.simpleAncestors
          dsimp only
          rw [inductionHypothesis]
          rfl

theorem foldl_warn_relax (warnings : List Warning) :
    warnings.foldl Context.warn (context.relax relaxation) =
      (warnings.foldl Context.warn context).relax relaxation :=
  List.foldl_hom (Context.relax · relaxation) fun _ _ => rfl

/-! ## Groups -/

mutual

theorem expandNode_relax {groups : Table ElementGroup} {path : List NodeId} {id : NodeId}
    {context next : Context} (expanded : expandNode groups path id context = .ok next) :
    expandNode groups path id (context.relax relaxation) =
      .ok (next.relax relaxation) := by
  have elementSame : (context.relax relaxation).element? id = context.element? id := rfl
  rw [expandNode] at expanded ⊢
  rw [elementSame]
  split at expanded
  · cases expanded
  · rename_i checked
    have checkedToo :
        (context.relax relaxation).options.limits.checkGroups path.length = .ok () :=
      (relaxation.within context.options).checkGroups checked
    rw [checkedToo]
    dsimp only
    split at expanded
    · cases expanded
      rfl
    · rename_i element found
      split at expanded
      · rename_i refers
        have refersToo : (element.children.any fun child =>
            ((context.relax relaxation).groupReference? child).isSome) = true := refers
        rw [if_pos refersToo]
        split at expanded
        · cases expanded
        · rename_i childrenExpanded
          cases expanded
          rw [expandChildren_relax childrenExpanded]
          rfl
      · rename_i flat
        have flatToo : ¬ (element.children.any fun child =>
            ((context.relax relaxation).groupReference? child).isSome) = true := flat
        cases expanded
        rw [if_neg flatToo]
termination_by (unvisited (groupDefinitions groups) path, 1, 0)

theorem expandChildren_relax {groups : Table ElementGroup} {path : List NodeId}
    {owner : String} {children members : List NodeId} {context next : Context}
    (expanded : expandChildren groups path owner children context = .ok (members, next)) :
    expandChildren groups path owner children (context.relax relaxation) =
      .ok (members, next.relax relaxation) := by
  cases children with
  | nil =>
      rw [expandChildren] at expanded ⊢
      cases expanded
      rfl
  | cons child rest =>
      rw [expandChildren_step] at expanded ⊢
      rw [groupReference?_relax]
      cases referred : context.groupReference? child with
      | none =>
          rw [referred] at expanded
          obtain ⟨⟨later, _⟩, laterExpanded, same⟩ := map_eq_ok_iff.1 expanded
          cases same
          dsimp only
          rw [expandChildren_relax laterExpanded]
          rfl
      | some reference =>
          rw [referred] at expanded
          dsimp only at expanded ⊢
          split at expanded
          · exact expandChildren_relax expanded
          · rename_i definition found
            split at expanded
            · rename_i circular
              rw [if_pos circular]
              exact expandChildren_relax expanded
            · rename_i fresh
              rw [if_neg fresh]
              split at expanded
              · cases expanded
              · rename_i inner nodeExpanded
                obtain ⟨⟨later, _⟩, laterExpanded, same⟩ := map_eq_ok_iff.1 expanded
                cases same
                rw [expandNode_relax nodeExpanded]
                dsimp only
                rw [expandChildren_relax laterExpanded]
                rfl
termination_by (unvisited (groupDefinitions groups) path, 0, children.length)
decreasing_by
  all_goals first
    | exact Prod.Lex.right _ (Prod.Lex.right _ (by subst_vars; simp))
    | exact Prod.Lex.left _ _
        (unvisited_cons_lt (mem_groupDefinitions (by assumption)) (by assumption))

end

theorem expandBelow_relax {groups : Table ElementGroup} {visited pending : List NodeId}
    (expanded : expandBelow groups visited pending context = .ok next) :
    expandBelow groups visited pending (context.relax relaxation) =
      .ok (next.relax relaxation) := by
  induction visited, pending, context using expandBelow.induct groups with
  | case1 visited context =>
      rw [expandBelow] at expanded ⊢
      cases expanded
      rfl
  | case2 visited id pending context seen inductionHypothesis =>
      rw [expandBelow_seen seen] at expanded ⊢
      exact inductionHypothesis expanded
  | case3 visited id pending context new halt halted =>
      rw [expandBelow_halted new halted] at expanded
      cases expanded
  | case4 visited id pending context new between completed absent inductionHypothesis =>
      rw [expandBelow_absent new completed absent] at expanded
      have absentToo : (between.relax relaxation).element? id = none := absent
      rw [expandBelow_absent new (expandNode_relax completed) absentToo]
      exact inductionHypothesis expanded
  | case5 visited id pending context new between completed element found inductionHypothesis =>
      rw [expandBelow_visit new completed found] at expanded
      have foundToo : (between.relax relaxation).element? id = some element := found
      rw [expandBelow_visit new (expandNode_relax completed) foundToo]
      exact inductionHypothesis expanded

theorem expandGroups_relax {root : NodeId}
    (expanded : expandGroups root context = .ok next) :
    expandGroups root (context.relax relaxation) = .ok (next.relax relaxation) := by
  unfold expandGroups at expanded ⊢
  dsimp only at expanded ⊢
  have groups : (context.relax relaxation).elementGroups = context.elementGroups := rfl
  rw [groups]
  split at expanded
  · cases expanded
  · rename_i flattened completed
    have completedToo : (groupDefinitions context.elementGroups).foldlM
        (fun current definition =>
          expandNode context.elementGroups [definition] definition current)
        (context.relax relaxation) = .ok (flattened.relax relaxation) :=
      foldlM_image (Context.relax · relaxation) expandNode_relax completed
    rw [completedToo]
    exact expandBelow_relax expanded

/-! ## The index -/

theorem indexElements_relax (root : NodeId) :
    indexElements root (context.relax relaxation) =
      (indexElements root context).relax relaxation := by
  refine List.foldl_hom (Context.relax · relaxation) fun context id => ?_
  have elementSame : (context.relax relaxation).element? id = context.element? id := rfl
  unfold indexElement
  rw [elementSame]
  cases context.element? id with
  | none => rfl
  | some element =>
      dsimp only
      split
      · unfold Context.register
        have canSame : (context.relax relaxation).canRegister element.name =
          context.canRegister element.name := rfl
        rw [canSame]
        split <;> rfl
      · rfl

/-! ## Completion and distinct names -/

theorem completeElement_relax {id : NodeId}
    (completed : completeElement context id = .ok next) :
    completeElement (context.relax relaxation) id = .ok (next.relax relaxation) := by
  have elementSame : (context.relax relaxation).element? id = context.element? id := rfl
  unfold completeElement at completed ⊢
  rw [elementSame]
  split at completed
  · cases completed
    rfl
  · rename_i element _
    have mergedSame : (context.relax relaxation).mergedAttributes element =
      context.mergedAttributes element := rfl
    have completedSame : (context.relax relaxation).completed = context.completed := by
      unfold Context.completed
      rw [Context.renames_relax]
      rfl
    dsimp only at completed ⊢
    rw [mergedSame, completedSame, foldl_warn_relax]
    split at completed
    · cases completed
    · cases completed
      rfl

theorem separateElement_relax {id : NodeId}
    (separated : separateElement context id = .ok next) :
    separateElement (context.relax relaxation) id = .ok (next.relax relaxation) := by
  unfold separateElement at separated ⊢
  split at separated
  · cases separated
  · rename_i climbed
    cases separated
    rw [ancestors_relax climbed]
    rfl

/-! ## Mixed content and inheritance -/

theorem equalizeMixed_relax (members : List NodeId) :
    (context.relax relaxation).equalizeMixed members =
      (context.equalizeMixed members).relax relaxation := by
  have mixedSame : ((members.filterMap (context.relax relaxation).element?).any
      Element.isMixed) = (members.filterMap context.element?).any Element.isMixed := rfl
  unfold Context.equalizeMixed
  rw [mixedSame]
  split
  · exact List.foldl_hom (Context.relax · relaxation) fun _ _ => rfl
  · rfl

theorem withSimpleBases_relax (element : Element) :
    (context.relax relaxation).withSimpleBases element = context.withSimpleBases element := by
  have ancestorsSame : ∀ base?, (context.relax relaxation).simpleAncestors []
        (context.relax relaxation).options.limits.simpleTypeHops base? =
      context.simpleAncestors [] context.options.limits.simpleTypeHops base? := by
    intro base?
    rw [simpleAncestors_relax, Context.simpleTypeHops_relax]
  unfold Context.withSimpleBases
  dsimp only
  simp only [ancestorsSame]
  rfl

theorem flagMismatch_relax (isMixed : Bool) (link : NodeId) (chain : List NodeId) :
    (context.relax relaxation).flagMismatch isMixed link chain =
      (context.flagMismatch isMixed link chain).relax relaxation := by
  have elementSame : ∀ id, (context.relax relaxation).element? id = context.element? id :=
    fun _ => rfl
  induction chain generalizing link with
  | nil => rfl
  | cons parent rest inductionHypothesis =>
      unfold Context.flagMismatch
      dsimp only
      rw [elementSame, elementSame, inductionHypothesis]
      split
      · rfl
      · cases context.element? link with
        | none => rfl
        | some element =>
            dsimp only
            split <;> rfl

theorem equalizeElement_relax {state result : Context × List (NodeId × List NodeId)}
    {id : NodeId} (equalized : equalizeElement state id = .ok result) :
    equalizeElement (state.1.relax relaxation, state.2) id =
      .ok (result.1.relax relaxation, result.2) := by
  obtain ⟨context, chains⟩ := state
  unfold equalizeElement at equalized ⊢
  dsimp only at equalized ⊢
  split at equalized
  · cases equalized
  · rename_i climbed
    cases equalized
    rw [ancestors_relax climbed]
    dsimp only
    rw [equalizeMixed_relax, funext withSimpleBases_relax]
    rfl

theorem checkMixedContent_relax {root : NodeId}
    (checked : checkMixedContent root context = .ok next) :
    checkMixedContent root (context.relax relaxation) = .ok (next.relax relaxation) := by
  have walkSame : (context.relax relaxation).walk root = context.walk root := rfl
  have checkSame : ∀ (context : Context) (entry : NodeId × List NodeId),
      (context.relax relaxation).checkMixed entry.1 entry.2 =
        (context.checkMixed entry.1 entry.2).relax relaxation := by
    intro context entry
    have elementSame : (context.relax relaxation).element? entry.1 =
      context.element? entry.1 := rfl
    unfold Context.checkMixed
    rw [elementSame]
    cases context.element? entry.1 with
    | none => rfl
    | some element => exact flagMismatch_relax _ _ _
  unfold checkMixedContent at checked ⊢
  rw [walkSame]
  split at checked
  · cases checked
  · rename_i equalized chains completed
    cases checked
    have completedToo : (context.walk root).foldlM equalizeElement
        (context.relax relaxation, []) = .ok (equalized.relax relaxation, chains) :=
      foldlM_image (fun state => (state.1.relax relaxation, state.2))
        equalizeElement_relax completed
    rw [completedToo]
    exact congrArg Except.ok (List.foldl_hom (Context.relax · relaxation) checkSame)

theorem markExtended_relax (root : NodeId) :
    markExtended root (context.relax relaxation) =
      (markExtended root context).relax relaxation := by
  refine List.foldl_hom (Context.relax · relaxation) fun context id => ?_
  have parentSame : (context.relax relaxation).parent? id = context.parent? id := rfl
  unfold Context.markParent
  rw [parentSame]
  split <;> rfl

/-! ## The two passes that resolve types -/

section Types

variable (keeps : relaxation.KeepsLenient)

include keeps in
/-- The strict policy gives no name, so where a name is given the policy is lenient. -/
theorem fallBack_relax {node name : String} {cause : SemanticCause}
    (given : context.fallBack node cause = .ok name) :
    (context.relax relaxation).fallBack node cause = .ok name := by
  unfold Context.fallBack at given
  cases policy : context.options.fallback with
  | strict =>
      rw [policy] at given
      cases given
  | lenient =>
      rw [policy] at given
      have lenient : (context.relax relaxation).options.fallback = .lenient :=
        keeps context.options policy
      unfold Context.fallBack
      rw [lenient]
      exact given

include keeps in
theorem settleChain_relax {node start name : String} {ending : ChainEnd}
    (settled : context.settleChain node start ending = .ok name) :
    (context.relax relaxation).settleChain node start ending = .ok name := by
  cases ending with
  | leaves _ => exact settled
  | union => exact settled
  | noBase _ => exact fallBack_relax keeps settled
  | endless => exact fallBack_relax keeps settled

include keeps in
theorem resolveSimple_relax {node start : String} {type : ResolvedType}
    (resolved : context.resolveSimple node start = .ok type) :
    (context.relax relaxation).resolveSimple node start = .ok type := by
  obtain ⟨name, settled, same⟩ := map_eq_ok_iff.1 resolved
  refine map_eq_ok_iff.2 ⟨name, ?_, ?_⟩
  · rw [Context.simpleTypeHops_relax, simpleChain_relax]
    exact settleChain_relax keeps settled
  · rw [Context.simpleTypeHops_relax, simpleChain_relax]
    exact same

include keeps in
theorem resolveAlias_relax {nominals : Nominals} {node name : String} {resolution : Resolution}
    (resolved : context.resolveAlias nominals node name = .ok resolution) :
    (context.relax relaxation).resolveAlias nominals node name = .ok resolution := by
  unfold Context.resolveAlias at resolved ⊢
  dsimp only at resolved ⊢
  rw [aliasChain_relax]
  split at resolved
  · obtain ⟨type, simple, same⟩ := map_eq_ok_iff.1 resolved
    exact map_eq_ok_iff.2 ⟨type, resolveSimple_relax keeps simple, same⟩
  · exact resolved
  · exact resolved

include keeps in
theorem resolve_relax {nominals : Nominals} {node : String} {nominal : Nominal}
    {resolution : Resolution}
    (resolved : context.resolve nominals node nominal = .ok resolution) :
    (context.relax relaxation).resolve nominals node nominal = .ok resolution := by
  have indexSame : (context.relax relaxation).elementIndex = context.elementIndex := rfl
  have typesSame : (context.relax relaxation).simpleTypes = context.simpleTypes := rfl
  have vocabularySame : (context.relax relaxation).vocabulary = context.vocabulary := rfl
  unfold Context.resolve at resolved ⊢
  dsimp only at resolved ⊢
  rw [indexSame, typesSame, vocabularySame]
  by_cases indexed : context.elementIndex.contains nominal.name
  · rw [if_pos indexed] at resolved ⊢
    exact resolveAlias_relax keeps resolved
  · rw [if_neg indexed] at resolved ⊢
    by_cases simple : context.simpleTypes.contains nominal.name
    · rw [if_pos simple] at resolved ⊢
      obtain ⟨type, found, same⟩ := map_eq_ok_iff.1 resolved
      exact map_eq_ok_iff.2 ⟨type, resolveSimple_relax keeps found, same⟩
    · rw [if_neg simple] at resolved ⊢
      by_cases builtin : context.vocabulary.isBuiltin nominal.name
      · rw [if_pos builtin] at resolved ⊢
        exact resolved
      · rw [if_neg builtin] at resolved ⊢
        by_cases ownName : nominal.source = .name
        · rw [if_pos ownName] at resolved ⊢
          exact resolved
        · rw [if_neg ownName] at resolved ⊢
          obtain ⟨name, given, same⟩ := map_eq_ok_iff.1 resolved
          exact map_eq_ok_iff.2 ⟨name, fallBack_relax keeps given, same⟩

theorem noteSimpleType_relax (id : NodeId) (nominal : Nominal) :
    (context.relax relaxation).noteSimpleType id nominal =
      (context.noteSimpleType id nominal).relax relaxation := by
  have typesSame : (context.relax relaxation).simpleTypes = context.simpleTypes := rfl
  unfold Context.noteSimpleType
  rw [typesSame, isListType_relax]
  split <;> rfl

theorem settle_relax (id : NodeId) (resolution : Resolution) :
    (context.relax relaxation).settle id resolution =
      (context.settle id resolution).relax relaxation := by
  have elementSame : (context.relax relaxation).element? id = context.element? id := rfl
  unfold Context.settle
  rw [elementSame]
  cases context.element? id with
  | none => rfl
  | some element =>
      dsimp only
      split <;> rfl

include keeps in
theorem resolveElement_relax {nominals : Nominals} {id : NodeId}
    (resolved : resolveElement nominals context id = .ok next) :
    resolveElement nominals (context.relax relaxation) id =
      .ok (next.relax relaxation) := by
  have elementSame : (context.relax relaxation).element? id = context.element? id := rfl
  unfold resolveElement at resolved ⊢
  rw [elementSame]
  split at resolved
  · cases resolved
    rfl
  · split at resolved
    · rename_i untouched
      rw [if_pos untouched]
      cases resolved
      rfl
    · rename_i typed
      rw [if_neg typed]
      split at resolved
      · cases resolved
        exact congrArg Except.ok (settle_relax id _)
      · rename_i nominal _
        dsimp only at resolved ⊢
        rw [noteSimpleType_relax]
        split at resolved
        · cases resolved
        · rename_i resolution found
          cases resolved
          rw [resolve_relax keeps found]
          exact congrArg Except.ok (settle_relax id resolution)

include keeps in
theorem resolveTypes_relax {root : NodeId} (resolved : resolveTypes root context = .ok next) :
    resolveTypes root (context.relax relaxation) = .ok (next.relax relaxation) :=
  foldlM_image (Context.relax · relaxation) (resolveElement_relax keeps) resolved

include keeps in
theorem resolveAttributeType_relax {place dataType : String} {type : ResolvedType}
    (resolved : context.resolveAttributeType place dataType = .ok type) :
    (context.relax relaxation).resolveAttributeType place dataType = .ok type := by
  have typesSame : (context.relax relaxation).simpleTypes = context.simpleTypes := rfl
  have vocabularySame : (context.relax relaxation).vocabulary = context.vocabulary := rfl
  unfold Context.resolveAttributeType at resolved ⊢
  dsimp only at resolved ⊢
  rw [typesSame, vocabularySame]
  by_cases builtin : context.vocabulary.isBuiltin dataType
  · rw [if_pos builtin] at resolved ⊢
    exact resolved
  · rw [if_neg builtin] at resolved ⊢
    by_cases simple : context.simpleTypes.contains (Namespace.localPart dataType)
    · rw [if_pos simple] at resolved ⊢
      exact resolveSimple_relax keeps resolved
    · rw [if_neg simple] at resolved ⊢
      obtain ⟨name, given, same⟩ := map_eq_ok_iff.1 resolved
      exact map_eq_ok_iff.2 ⟨name, fallBack_relax keeps given, same⟩

include keeps in
theorem resolveAttribute_relax {id : NodeId} {owner : String} {entry : String × Attribute}
    (resolved : resolveAttribute id owner context entry = .ok next) :
    resolveAttribute id owner (context.relax relaxation) entry =
      .ok (next.relax relaxation) := by
  unfold resolveAttribute at resolved ⊢
  split at resolved
  · cases resolved
  · rename_i type found
    cases resolved
    rw [resolveAttributeType_relax keeps found]
    rfl

include keeps in
theorem resolveElementAttributes_relax {id : NodeId}
    (resolved : resolveElementAttributes context id = .ok next) :
    resolveElementAttributes (context.relax relaxation) id =
      .ok (next.relax relaxation) := by
  have elementSame : (context.relax relaxation).element? id = context.element? id := rfl
  unfold resolveElementAttributes at resolved ⊢
  rw [elementSame]
  split at resolved
  · exact foldlM_image (Context.relax · relaxation) (resolveAttribute_relax keeps) resolved
  · cases resolved
    rfl

include keeps in
theorem resolveAttributeTypes_relax {root : NodeId}
    (resolved : resolveAttributeTypes root context = .ok next) :
    resolveAttributeTypes root (context.relax relaxation) =
      .ok (next.relax relaxation) :=
  foldlM_image (Context.relax · relaxation) (resolveElementAttributes_relax keeps) resolved

end Types

end XmlSchema
