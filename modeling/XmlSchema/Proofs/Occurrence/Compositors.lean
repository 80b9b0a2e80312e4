import Mathlib.Data.List.Induction
import XmlSchema.Proofs.Tree.Growth
import XmlSchema.Proofs.Tree.Standing

/-!
# The choice around a tag

A compositor notes how many nodes are open when its tag opens. A declaration takes the bounds of the
first choice among the innermost compositors that have noted as many nodes as are open now. Inside
an open node this is the innermost choice with no tag that makes a node between them:
`enclosingChoice?_of_composed`. For the numbers that are noted never fall from the outside inwards,
and every tag that makes a node raises them: `Composed`.
-/

namespace XmlSchema

/-- The tags that are open after some events, the innermost first, each with its attributes. -/
def Xml.openTags (events : List Xml.Event) : List (String × Xml.Attributes) :=
  events.foldl (fun around event =>
    match event with
    | .opening tag attributes => (tag, attributes) :: around
    | .closing => around.tail
    | .empty _ _ | .text _ => around) []

/-- The bounds that the tag of a choice declares. -/
def ChoiceBounds.ofAttributes (attributes : Xml.Attributes) : ChoiceBounds :=
  ⟨attributes.find? "minOccurs", attributes.find? "maxOccurs"⟩

/-- What the tag of a compositor declares. -/
def Construct.choice? (construct : Construct) (attributes : Xml.Attributes) :
    Option ChoiceBounds :=
  if construct = .choice then some (.ofAttributes attributes) else none

namespace Assembly

/-- The attributes of the innermost choice among open tags, if none of those inside it has made a
node. -/
def innermostChoice? (around : List (OpenTag × Xml.Attributes)) : Option Xml.Attributes :=
  ((around.takeWhile (!·.1.opensNode)).find? (·.1.construct = .choice)).map Prod.snd

/-- The compositors of the open tags, given how many nodes are open. Outside all tags that make
nodes nothing is known but that no compositor has noted more nodes than are open. -/
inductive Composed : List (OpenTag × Xml.Attributes) → Nat → List Compositor → Prop where
  | outside {around : List (OpenTag × Xml.Attributes)} {depth : Nat}
      {compositors : List Compositor} (free : ∀ tag ∈ around, tag.1.opensNode = false)
      (shallow : ∀ compositor ∈ compositors, compositor.ownerDepth ≤ depth) :
      Composed around depth compositors
  | passing {tag : OpenTag × Xml.Attributes} {around : List (OpenTag × Xml.Attributes)}
      {depth : Nat} {compositors : List Compositor} (passes : tag.1.opensNode = false)
      (other : tag.1.construct.composes = false) (rest : Composed around depth compositors) :
      Composed (tag :: around) depth compositors
  | composing {tag : OpenTag × Xml.Attributes} {around : List (OpenTag × Xml.Attributes)}
      {depth : Nat} {compositors : List Compositor} (passes : tag.1.opensNode = false)
      (composes : tag.1.construct.composes = true) (rest : Composed around depth compositors) :
      Composed (tag :: around) depth (⟨depth, tag.1.construct.choice? tag.2⟩ :: compositors)
  | opening {tag : OpenTag × Xml.Attributes} {around : List (OpenTag × Xml.Attributes)}
      {depth : Nat} {compositors : List Compositor} (opens : tag.1.opensNode = true)
      (other : tag.1.construct.composes = false) (rest : Composed around depth compositors) :
      Composed (tag :: around) (depth + 1) compositors

variable {context : Context} {assembly before opened after : Assembly} {name : String}
  {attributes : Xml.Attributes} {around : List (OpenTag × Xml.Attributes)} {depth : Nat}
  {compositors : List Compositor}

namespace Composed

theorem ownerDepth_le (composed : Composed around depth compositors) :
    ∀ compositor ∈ compositors, compositor.ownerDepth ≤ depth := by
  induction composed with
  | outside _ shallow => exact shallow
  | passing _ _ _ inductionHypothesis => exact inductionHypothesis
  | composing _ _ _ inductionHypothesis =>
      exact List.forall_mem_cons.2 ⟨Nat.le_refl _, inductionHypothesis⟩
  | opening _ _ _ inductionHypothesis =>
      exact fun compositor member => Nat.le_succ_of_le (inductionHypothesis compositor member)

/-- Where no node is open, no open tag has made one. -/
theorem free_of_zero (composed : Composed around depth compositors) (none : depth = 0) :
    ∀ tag ∈ around, tag.1.opensNode = false := by
  induction composed with
  | outside free _ => exact free
  | passing passes _ _ inductionHypothesis =>
      exact List.forall_mem_cons.2 ⟨passes, inductionHypothesis none⟩
  | composing passes _ _ inductionHypothesis =>
      exact List.forall_mem_cons.2 ⟨passes, inductionHypothesis none⟩
  | opening _ _ _ => cases none

/-- A node that stays open outside of all tags that make nodes changes nothing. -/
theorem leftOpen (composed : Composed around 0 compositors) (depth : Nat) :
    Composed around depth compositors :=
  .outside (composed.free_of_zero rfl) fun compositor member =>
    Nat.le_trans (composed.ownerDepth_le compositor member) (Nat.zero_le depth)

/-- The closing of a tag takes what is noted about it. Its node is closed too, or stays open as the
only one. -/
theorem tail {tag : OpenTag × Xml.Attributes} {left : Nat}
    (composed : Composed (tag :: around) depth compositors)
    (passing : tag.1.opensNode = false → left = depth)
    (opening : tag.1.opensNode = true → left = depth ∧ depth ≤ 1 ∨ left = depth - 1) :
    Composed around left
      (if tag.1.construct.composes then compositors.tail else compositors) := by
  cases composed with
  | outside free shallow =>
      obtain ⟨passes, outer⟩ := List.forall_mem_cons.1 free
      rw [passing passes]
      refine .outside outer fun compositor member => ?_
      split at member
      · exact shallow compositor (List.mem_of_mem_tail member)
      · exact shallow compositor member
  | passing passes other rest =>
      rw [passing passes, other]
      exact rest
  | composing passes composes rest =>
      rw [passing passes, composes]
      exact rest
  | opening opens other rest =>
      rw [other]
      rcases opening opens with ⟨rfl, alone⟩ | rfl
      · obtain rfl := Nat.le_zero.1 (Nat.le_of_succ_le_succ alone)
        exact rest.leftOpen _
      · exact rest

end Composed

theorem innermostChoice?_passing {tag : OpenTag × Xml.Attributes}
    (passes : tag.1.opensNode = false) :
    innermostChoice? (tag :: around) =
      if tag.1.construct = .choice then some tag.2 else innermostChoice? around := by
  unfold innermostChoice?
  rw [List.takeWhile_cons_of_pos (by rw [passes]; rfl), List.find?_cons]
  by_cases isChoice : tag.1.construct = .choice
  · rw [if_pos isChoice, decide_eq_true isChoice]
    rfl
  · rw [if_neg isChoice, decide_eq_false isChoice]

theorem innermostChoice?_opening {tag : OpenTag × Xml.Attributes}
    (opens : tag.1.opensNode = true) : innermostChoice? (tag :: around) = none := by
  unfold innermostChoice?
  rw [List.takeWhile_cons_of_neg (by rw [opens]; decide)]
  rfl

theorem exists_opensNode_of_passing {tag : OpenTag × Xml.Attributes}
    (passes : tag.1.opensNode = false)
    (inside : ∃ other ∈ tag :: around, other.1.opensNode = true) :
    ∃ other ∈ around, other.1.opensNode = true := by
  obtain ⟨other, member, opens⟩ := inside
  rcases List.mem_cons.1 member with rfl | outer
  · rw [passes] at opens
    cases opens
  · exact ⟨other, outer, opens⟩

/-- Inside an open node, the bounds in force are those of the innermost choice. -/
theorem enclosingChoice?_of_composed
    (composed : Composed around assembly.depth assembly.compositors)
    (inside : ∃ tag ∈ around, tag.1.opensNode = true) :
    assembly.enclosingChoice? = (innermostChoice? around).map .ofAttributes := by
  unfold enclosingChoice?
  generalize assembly.depth = depth at composed ⊢
  generalize assembly.compositors = compositors at composed ⊢
  induction composed with
  | outside free _ =>
      obtain ⟨tag, member, opens⟩ := inside
      rw [free tag member] at opens
      cases opens
  | @passing tag _ _ _ passes other _ inductionHypothesis =>
      have notChoice : ¬ tag.1.construct = .choice := fun isChoice => by
        rw [isChoice] at other
        cases other
      rw [innermostChoice?_passing passes, if_neg notChoice]
      exact inductionHypothesis (exists_opensNode_of_passing passes inside)
  | @composing tag _ depth _ passes composes _ inductionHypothesis =>
      have noted : ∀ compositors : List Compositor,
          (⟨depth, tag.1.construct.choice? tag.2⟩ :: compositors).takeWhile
            (·.ownerDepth = depth) = ⟨depth, tag.1.construct.choice? tag.2⟩ ::
              compositors.takeWhile (·.ownerDepth = depth) :=
        fun _ => List.takeWhile_cons_of_pos (decide_eq_true rfl)
      rw [innermostChoice?_passing passes, noted, List.findSome?_cons]
      unfold Construct.choice?
      by_cases isChoice : tag.1.construct = .choice
      · rw [if_pos isChoice, if_pos isChoice]
        rfl
      · rw [if_neg isChoice, if_neg isChoice]
        exact inductionHypothesis (exists_opensNode_of_passing passes inside)
  | @opening tag _ depth compositors opens _ rest _ =>
      -- All compositors have noted fewer nodes than are open.
      rw [innermostChoice?_opening opens]
      have outer : compositors.takeWhile (·.ownerDepth = depth + 1) = [] := by
        cases compositors with
        | nil => rfl
        | cons compositor compositors =>
            have bound := rest.ownerDepth_le compositor (List.mem_cons_self ..)
            refine List.takeWhile_cons_of_neg fun noted => ?_
            have same := of_decide_eq_true noted
            omega
      rw [outer]
      rfl

/-! ## What tags do to the compositors -/

theorem compositors_openTag (assembly : Assembly) (construct : Construct)
    (attributes : Xml.Attributes) :
    (assembly.openTag construct attributes).1.compositors =
      if construct.composes then
        ⟨assembly.depth, construct.choice? attributes⟩ :: assembly.compositors
      else assembly.compositors := by
  cases composes : construct.composes with
  | true =>
      cases construct
      case sequence | choice | all => rfl
      all_goals cases composes
  | false =>
      rw [if_neg Bool.false_ne_true]
      by_cases isAttribute : construct = .attribute
      · subst isAttribute
        show (assembly.openAttribute attributes).compositors = _
        unfold openAttribute
        dsimp only
        split
        · rfl
        · split
          · rfl
          · split
            · rfl
            · split <;> rfl
      · exact congrArg Prod.snd (marks_openTag assembly attributes isAttribute composes)

theorem compositors_closeTag (assembly : Assembly) (tag : OpenTag) :
    (assembly.closeTag tag).compositors =
      if tag.construct.composes then assembly.compositors.tail else assembly.compositors := by
  cases composes : tag.construct.composes with
  | true =>
      obtain ⟨construct, name, opensNode⟩ := tag
      cases construct
      case sequence | choice | all => rfl
      all_goals cases composes
  | false =>
      rw [if_neg Bool.false_ne_true]
      by_cases isAttribute : tag.construct = .attribute
      · unfold closeTag
        rw [isAttribute]
      · exact congrArg Prod.snd (marks_closeTag assembly tag isAttribute composes)

/-! ## Events -/

/-- The open tags of an assembly, each with its attributes, and their compositors. -/
structure Surrounds (around : List (OpenTag × Xml.Attributes)) (assembly : Assembly) : Prop where
  openTags : around.map Prod.fst = assembly.openTags
  composed : Composed around assembly.depth assembly.compositors

/-- A tag that makes a node opens it, and any other leaves the open nodes as they are. -/
theorem depth_openTag (assembly : Assembly) (construct : Construct) (attributes : Xml.Attributes) :
    (assembly.openTag construct attributes).1.openTags = assembly.openTags ∧
      (assembly.openTag construct attributes).1.depth =
        if (assembly.openTag construct attributes).2 then assembly.depth + 1
        else assembly.depth := by
  have effect := effect_openTag assembly construct attributes
  generalize assembly.openTag construct attributes = result at effect
  obtain ⟨opened, opensNode⟩ := result
  cases opensNode with
  | true =>
      have opens := Opens.of_effect effect
      exact ⟨opens.openTags, congrArg List.length opens.openNodes⟩
  | false =>
      cases effect with
      | passes _ quiet => exact ⟨quiet.openTags, congrArg List.length quiet.openNodes⟩

/-- An opening puts its tag and what is noted about it on the stacks. -/
theorem exists_surrounds_of_stepOpening (surrounds : Surrounds around before)
    (taken : before.stepOpening name attributes = .ok opened) :
    ∃ tag : OpenTag, tag.tag = name ∧ Surrounds ((tag, attributes) :: around) opened := by
  obtain ⟨-, openNodes, openTags, compositors, -⟩ := stacks_adoptQualifier before name attributes
  obtain ⟨construct, -, rfl⟩ := exists_openTag_of_stepOpening taken
  have composed : Composed around (before.adoptQualifier name attributes).depth
      (before.adoptQualifier name attributes).compositors := by
    unfold depth
    rw [openNodes, compositors]
    exact surrounds.composed
  have tags : around.map Prod.fst = (before.adoptQualifier name attributes).openTags :=
    surrounds.openTags.trans openTags.symm
  generalize before.adoptQualifier name attributes = adopted at composed tags
  obtain ⟨sameTags, depths⟩ := depth_openTag adopted construct attributes
  have noted := compositors_openTag adopted construct attributes
  refine ⟨_, rfl, ⟨(congrArg (_ :: ·) (tags.trans sameTags.symm) :), ?_⟩⟩
  show Composed _ (adopted.openTag construct attributes).1.depth
    (adopted.openTag construct attributes).1.compositors
  rw [depths, noted]
  cases composes : construct.composes with
  | true =>
      have passes : (adopted.openTag construct attributes).2 = false := by
        cases construct
        case sequence | choice | all => rfl
        all_goals cases composes
      rw [if_neg (by rw [passes]; decide), if_pos rfl]
      exact .composing passes composes composed
  | false =>
      rw [if_neg Bool.false_ne_true]
      cases (adopted.openTag construct attributes).2 with
      | true => exact .opening rfl composes composed
      | false => exact .passing rfl composes composed

theorem ClosingEffect.depth_eq {tag : OpenTag} (effect : ClosingEffect tag before after) :
    (tag.opensNode = false → after.depth = before.depth) ∧
      (tag.opensNode = true →
        after.depth = before.depth ∧ before.depth ≤ 1 ∨ after.depth = before.depth - 1) := by
  cases effect with
  | passes stays quiet =>
      have same : after.depth = before.depth := congrArg List.length quiet.openNodes
      refine ⟨fun _ => same, fun opens => .inl ⟨same, ?_⟩⟩
      have alone := congrArg List.length (stays opens)
      rw [List.length_tail] at alone
      exact Nat.sub_eq_zero_iff_le.1 alone
  | drops opens _ quiet =>
      refine ⟨fun passes => absurd (opens.symm.trans passes) (by decide), fun _ => .inr ?_⟩
      exact (congrArg List.length quiet.openNodes).trans List.length_tail
  | links opens _ _ =>
      refine ⟨fun passes => absurd (opens.symm.trans passes) (by decide), fun _ => .inr ?_⟩
      exact (congrArg List.length (stacks_linkChild before.dropNode _).1).trans List.length_tail

/-- A closing takes its tag and what is noted about it from the stacks. -/
theorem surrounds_of_stepClosing (standing : before.Standing) (surrounds : Surrounds around before)
    (taken : before.stepClosing = .ok after) : Surrounds around.tail after := by
  obtain ⟨tags, composed⟩ := surrounds
  obtain ⟨tag, outer, opened, closed⟩ := cases_of_stepClosing taken
  have stacked := standing.stacked
  rw [opened] at tags stacked
  cases around with
  | nil => cases tags
  | cons first around =>
      obtain ⟨rfl, rfl⟩ := List.cons.inj tags
      rcases closed with ⟨isSchema, root, single, rfl⟩ | ⟨inside, rfl⟩
      · have opens := stacked.opensNode_of_schema isSchema
        have alone : before.depth = 1 := congrArg List.length single
        rw [alone] at composed
        refine ⟨rfl, ?_⟩
        have rest := composed.tail (fun passes => absurd (opens.symm.trans passes) (by decide))
          fun _ => .inr (Nat.sub_self 1).symm
        rw [isSchema] at rest
        exact rest
      · have effect : ClosingEffect first.1 { before with openTags := around.map Prod.fst }
            (closeTag { before with openTags := around.map Prod.fst } first.1) :=
          effect_closeTag inside stacked.makesNode
        obtain ⟨passing, opening⟩ := effect.depth_eq
        refine ⟨effect.openTags.symm, ?_⟩
        rw [compositors_closeTag]
        exact composed.tail passing opening

theorem surrounds_stepText (surrounds : Surrounds around before) (text : String) :
    Surrounds around (before.stepText text) := by
  have quiet := quiet_stepText before text
  have compositors : (before.stepText text).compositors = before.compositors :=
    congrArg Prod.snd (marks_stepText before text)
  refine ⟨surrounds.openTags.trans quiet.openTags.symm, ?_⟩
  unfold depth
  rw [quiet.openNodes, compositors]
  exact surrounds.composed

/-- The open tags after some events have the names and attributes that the events give them, and
their compositors are noted. -/
theorem exists_surrounds {events : List Xml.Event}
    (completed : events.foldlM step (start context) = .ok after) :
    ∃ around, Surrounds around after ∧
      around.map (fun tag => (tag.1.tag, tag.2)) = Xml.openTags events := by
  induction events using List.reverseRecOn generalizing after with
  | nil =>
      cases foldlM_nil_eq_ok_iff.1 completed
      exact ⟨[], ⟨rfl, .outside (fun _ member => absurd member List.not_mem_nil)
        fun _ member => absurd member List.not_mem_nil⟩, rfl⟩
  | append_singleton earlier event inductionHypothesis =>
      obtain ⟨before, reached, last⟩ := foldlM_append_eq_ok_iff.1 completed
      obtain ⟨next, taken, rest⟩ := foldlM_cons_eq_ok_iff.1 last
      cases foldlM_nil_eq_ok_iff.1 rest
      obtain ⟨around, surrounds, named⟩ := inductionHypothesis reached
      have standing := (written_foldlM (standing_start context) reached).2
      unfold Xml.openTags at named ⊢
      rw [List.foldl_append, ← named]
      cases event with
      | opening name attributes =>
          obtain ⟨tag, rfl, inner⟩ := exists_surrounds_of_stepOpening surrounds taken
          exact ⟨_, inner, rfl⟩
      | closing =>
          exact ⟨_, surrounds_of_stepClosing standing surrounds taken, List.map_tail⟩
      | text content =>
          cases taken
          exact ⟨around, surrounds_stepText surrounds content, rfl⟩
      | empty name attributes =>
          obtain ⟨opened, openedTag, closed⟩ := exists_opened_of_step_empty taken
          obtain ⟨tag, rfl, inner⟩ := exists_surrounds_of_stepOpening surrounds openedTag
          exact ⟨_, surrounds_of_stepClosing (standing.stepOpening openedTag) inner closed, rfl⟩

end Assembly

end XmlSchema
