import XmlSchema.Proofs.Tree.Reading

/-!
# Documents as trees of tags

The events of a document spell its content: tags with the content inside them, in order. A document
that is taken to its end spells some content, `exists_spelled`. Of its content, `Content.outline`
keeps the tags that make nodes and numbers them in document order; what stands inside another tag
counts as standing around it. This says without any stack which nodes a document has and which of
them are the children of which.
-/

namespace XmlSchema

/-! ## Content -/

/-- What stands inside a tag or in a whole document: tags in a row, each with what is inside it.
Text is left out. -/
inductive Content where
  | nothing
  | tag (name : String) (attributes : Xml.Attributes) (inside rest : Content)

/-- The events that spell content. -/
inductive Content.Spelled : Content → List Xml.Event → Prop where
  | nothing : Spelled .nothing []
  | text {content : Content} {events : List Xml.Event} (text : String)
      (rest : Spelled content events) : Spelled content (.text text :: events)
  | empty {after : Content} {events : List Xml.Event} (name : String) (attributes : Xml.Attributes)
      (rest : Spelled after events) :
      Spelled (.tag name attributes .nothing after) (.empty name attributes :: events)
  | tag {inner after : Content} {within events : List Xml.Event} (name : String)
      (attributes : Xml.Attributes) (inside : Spelled inner within) (rest : Spelled after events) :
      Spelled (.tag name attributes inner after)
        (.opening name attributes :: (within ++ .closing :: events))

/-- Events that spell content inside open tags, from the innermost outwards, each up to the closing
of its tag and the last to the end. -/
inductive Content.SpelledAll : List Content → List Xml.Event → Prop where
  | last {content : Content} {events : List Xml.Event} (spelled : Spelled content events) :
      SpelledAll [content] events
  | closing {content : Content} {outer : List Content} {within events : List Xml.Event}
      (spelled : Spelled content within) (rest : SpelledAll outer events) :
      SpelledAll (content :: outer) (within ++ .closing :: events)

namespace Assembly

variable {assembly after next : Assembly}

theorem length_openTags_of_stepOpening {tag : String} {attributes : Xml.Attributes}
    (taken : assembly.stepOpening tag attributes = .ok next) :
    next.openTags.length = assembly.openTags.length + 1 := by
  obtain ⟨construct, opened, opensNode, -, -, effect, rfl⟩ := exists_effect_of_stepOpening taken
  have adopted : (assembly.adoptQualifier tag attributes).openTags = assembly.openTags :=
    (stacks_adoptQualifier assembly tag attributes).2.2.1
  show opened.openTags.length + 1 = _
  have kept : opened.openTags = (assembly.adoptQualifier tag attributes).openTags :=
    effect.opening.openTags
  rw [kept, adopted]

theorem length_openTags_of_stepClosing (sound : assembly.Sound)
    (taken : assembly.stepClosing = .ok next) :
    assembly.openTags.length = next.openTags.length + 1 := by
  obtain ⟨tag, outer, opened, closed⟩ := cases_of_stepClosing taken
  rw [opened]
  rcases closed with ⟨-, root, -, rfl⟩ | ⟨inside, rfl⟩
  · rfl
  · have aligned : Aligned assembly.context (tag :: outer) assembly.openNodes :=
      opened ▸ sound.aligned
    have closing : Closing outer { assembly with openTags := outer }
        (closeTag { assembly with openTags := outer } tag) :=
      closing_closeTag sound.context inside aligned
    rw [closing.openTags]
    rfl

/-- Steps that close all open tags in the end spell content inside each of them. -/
theorem exists_spelledAll {events : List Xml.Event} (sound : assembly.Sound)
    (completed : events.foldlM step assembly = .ok after) (closed : after.openTags = []) :
    ∃ contents, contents.length = assembly.openTags.length + 1 ∧
      Content.SpelledAll contents events := by
  induction events generalizing assembly with
  | nil =>
      cases foldlM_nil_eq_ok_iff.1 completed
      rw [closed]
      exact ⟨[.nothing], rfl, .last .nothing⟩
  | cons event rest inductionHypothesis =>
      obtain ⟨next, taken, later⟩ := foldlM_cons_eq_ok_iff.1 completed
      cases event with
      | text text =>
          cases taken
          have soundNext := sound_stepText sound text
          obtain ⟨contents, length, spelled⟩ := inductionHypothesis soundNext later
          rw [(quiet_stepText assembly text).openTags] at length
          refine ⟨contents, length, ?_⟩
          cases spelled with
          | last spelled => exact .last (.text text spelled)
          | closing spelled rest => exact .closing (.text text spelled) rest
      | closing =>
          obtain ⟨contents, length, spelled⟩ :=
            inductionHypothesis (sound_stepClosing sound taken) later
          rw [← length_openTags_of_stepClosing sound taken] at length
          exact ⟨.nothing :: contents, congrArg (· + 1) length, .closing .nothing spelled⟩
      | opening tag attributes =>
          obtain ⟨contents, length, spelled⟩ :=
            inductionHypothesis (sound_stepOpening sound taken) later
          rw [length_openTags_of_stepOpening taken] at length
          cases spelled with
          | last spelled => cases length
          | closing inside others =>
              cases others with
              | last spelled =>
                  have whole := Content.Spelled.tag tag attributes inside spelled
                  refine ⟨_, ?_, .last whole⟩
                  exact Nat.succ.inj length
              | closing spelled others =>
                  have whole := Content.SpelledAll.closing
                    (.tag tag attributes inside spelled) others
                  rw [List.cons_append, List.append_assoc, List.cons_append] at whole
                  refine ⟨_, ?_, whole⟩
                  exact Nat.succ.inj length
      | empty tag attributes =>
          obtain ⟨opened, openedTag, closedTag⟩ := exists_opened_of_step_empty taken
          have soundOpened := sound_stepOpening sound openedTag
          obtain ⟨contents, length, spelled⟩ :=
            inductionHypothesis (sound_stepClosing soundOpened closedTag) later
          have sameLength : next.openTags.length = assembly.openTags.length := by
            have opening := length_openTags_of_stepOpening openedTag
            have closing := length_openTags_of_stepClosing soundOpened closedTag
            omega
          rw [sameLength] at length
          cases spelled with
          | last spelled =>
              have whole := Content.Spelled.empty tag attributes spelled
              refine ⟨_, ?_, .last whole⟩
              exact length
          | closing spelled others =>
              have whole := Content.SpelledAll.closing (.empty tag attributes spelled) others
              refine ⟨_, ?_, whole⟩
              exact length

/-- A document that is taken to its end spells some content. -/
theorem exists_spelled {events : List Xml.Event} (sound : assembly.Sound)
    (noTags : assembly.openTags = [])
    (completed : events.foldlM step assembly = .ok after) (closed : after.openTags = []) :
    ∃ content, Content.Spelled content events := by
  obtain ⟨contents, length, spelled⟩ := exists_spelledAll sound completed closed
  rw [noTags] at length
  cases spelled with
  | last spelled => exact ⟨_, spelled⟩
  | closing _ others => cases others <;> cases length

end Assembly

/-! ## Outlines -/

/-- The nodes of some content in document order, each with those inside it. A node that is linked
becomes a child of the one around it. -/
inductive Outline where
  | nothing
  | node (id : NodeId) (construct : Construct) (linked : Bool) (inside rest : Outline)

namespace Outline

def append : Outline → Outline → Outline
  | .nothing, later => later
  | .node id construct linked inside rest, later =>
      .node id construct linked inside (rest.append later)

/-- How many nodes there are, at all depths. -/
def count : Outline → Nat
  | .nothing => 0
  | .node _ _ _ inside rest => inside.count + 1 + rest.count

/-- The linked nodes in the row. -/
def links : Outline → List NodeId
  | .nothing => []
  | .node id _ linked _ rest => if linked then id :: rest.links else rest.links

/-- Whether a node is there, at any depth, made by a tag of a construct and with `below` inside. -/
def Has : Outline → NodeId → Construct → Outline → Prop
  | .nothing, _, _, _ => False
  | .node first made _ inside rest, id, construct, below =>
      (id = first ∧ construct = made ∧ below = inside) ∨ inside.Has id construct below ∨
        rest.Has id construct below

variable {id other : NodeId} {construct kind : Construct} {below deeper : Outline}

@[simp] theorem append_nothing (outline : Outline) : outline.append .nothing = outline := by
  induction outline with
  | nothing => rfl
  | node id construct linked inside rest _ restHypothesis =>
      exact congrArg (Outline.node id construct linked inside) restHypothesis

@[simp] theorem count_append (early late : Outline) :
    (early.append late).count = early.count + late.count := by
  induction early with
  | nothing => exact (Nat.zero_add _).symm
  | node id construct linked inside rest _ restHypothesis =>
      show inside.count + 1 + (rest.append late).count = inside.count + 1 + rest.count + late.count
      rw [restHypothesis]
      omega

@[simp] theorem links_append (early late : Outline) :
    (early.append late).links = early.links ++ late.links := by
  induction early with
  | nothing => rfl
  | node id construct linked inside rest _ restHypothesis =>
      show (if linked then id :: (rest.append late).links else (rest.append late).links) =
        (if linked then id :: rest.links else rest.links) ++ late.links
      rw [restHypothesis]
      cases linked <;> rfl

theorem has_append {early late : Outline} :
    (early.append late).Has id construct below ↔
      early.Has id construct below ∨ late.Has id construct below := by
  induction early with
  | nothing => exact (false_or _).symm ▸ Iff.rfl
  | node first made linked inside rest _ restHypothesis =>
      show (_ ∨ inside.Has id construct below ∨ (rest.append late).Has id construct below) ↔
        (_ ∨ inside.Has id construct below ∨ rest.Has id construct below) ∨
          late.Has id construct below
      rw [restHypothesis, or_assoc, or_assoc]

/-- What is inside a node of an outline is in the outline. -/
theorem Has.trans {outline : Outline} (outer : outline.Has id construct below)
    (inner : below.Has other kind deeper) : outline.Has other kind deeper := by
  induction outline with
  | nothing => cases outer
  | node first made linked inside rest insideHypothesis restHypothesis =>
      rcases outer with ⟨-, -, rfl⟩ | within | later
      · exact .inr (.inl inner)
      · exact .inr (.inl (insideHypothesis within))
      · exact .inr (.inr (restHypothesis later))

theorem exists_has_of_mem_links {outline : Outline} (linked : id ∈ outline.links) :
    ∃ construct below, outline.Has id construct below := by
  induction outline with
  | nothing => cases linked
  | node first made isLinked inside rest _ restHypothesis =>
      have first_or_later : id = first ∨ id ∈ rest.links := by
        unfold links at linked
        split at linked
        · exact List.mem_cons.1 linked
        · exact .inr linked
      rcases first_or_later with rfl | later
      · exact ⟨made, inside, .inl ⟨rfl, rfl, rfl⟩⟩
      · obtain ⟨construct, below, has⟩ := restHypothesis later
        exact ⟨construct, below, .inr (.inr has)⟩

end Outline

/-- Whether the node of a tag is linked to the one around it, which needs a node around that one if
the tag is a reference to a group. -/
def Construct.linksNode (construct : Construct) (attributes : Xml.Attributes) (depth : Nat) : Bool :=
  match construct with
  | .element | .complexType | .any => true
  | .group => (attributes.find? "ref").isSome && decide (1 < depth)
  | _ => false

/-- The outline of content that stands inside tags of some constructs and inside a number of nodes,
where the first node gets the number `first`. -/
def Content.outline (vocabulary : Vocabulary) :
    (around : List Construct) → (depth first : Nat) → Content → Outline
  | _, _, _, .nothing => .nothing
  | around, depth, first, .tag name attributes inside rest =>
      let construct := vocabulary.classify name
      if construct.opensNode attributes around depth then
        let below := inside.outline vocabulary (construct :: around) (depth + 1) (first + 1)
        .node ⟨first⟩ construct (construct.linksNode attributes depth) below
          (rest.outline vocabulary around depth (first + 1 + below.count))
      else
        let within := inside.outline vocabulary (construct :: around) depth first
        within.append (rest.outline vocabulary around depth (first + within.count))

/-- A tag makes a node with what is inside it, or leaves what is inside it in the row. -/
theorem Content.outline_tag (vocabulary : Vocabulary) (around : List Construct) (depth first : Nat)
    (name : String) (attributes : Xml.Attributes) (inside rest : Content) :
    (Content.tag name attributes inside rest).outline vocabulary around depth first =
      if (vocabulary.classify name).opensNode attributes around depth then
        .node ⟨first⟩ (vocabulary.classify name)
          ((vocabulary.classify name).linksNode attributes depth)
          (inside.outline vocabulary (vocabulary.classify name :: around) (depth + 1) (first + 1))
          (rest.outline vocabulary around depth (first + 1 +
            (inside.outline vocabulary (vocabulary.classify name :: around) (depth + 1)
              (first + 1)).count))
      else
        (inside.outline vocabulary (vocabulary.classify name :: around) depth first).append
          (rest.outline vocabulary around depth (first +
            (inside.outline vocabulary (vocabulary.classify name :: around) depth first).count)) :=
  rfl

/-- The nodes of content have numbers in a row. -/
theorem Content.bounds_of_has {vocabulary : Vocabulary} {around : List Construct}
    {depth first : Nat} {content : Content} {id : NodeId} {construct : Construct} {below : Outline}
    (has : (content.outline vocabulary around depth first).Has id construct below) :
    first ≤ id.index ∧
      id.index + below.count < first + (content.outline vocabulary around depth first).count ∧
      ∀ other kind deeper, below.Has other kind deeper →
        id.index < other.index ∧ other.index ≤ id.index + below.count := by
  induction content generalizing around depth first id construct below with
  | nothing => cases has
  | tag name attributes inside rest insideHypothesis restHypothesis =>
      rw [outline_tag] at has ⊢
      split at has
      · rename_i opens
        rw [if_pos opens]
        rcases has with ⟨rfl, -, rfl⟩ | within | later
        · refine ⟨Nat.le_refl _, ?_, fun other kind deeper deep => ?_⟩
          · show first + _ < first + (_ + 1 + _)
            omega
          · obtain ⟨lower, upper, -⟩ := insideHypothesis deep
            show first < other.index ∧ other.index ≤ first + _
            omega
        · obtain ⟨lower, upper, deep⟩ := insideHypothesis within
          refine ⟨by omega, ?_, deep⟩
          show _ < first + (_ + 1 + _)
          omega
        · obtain ⟨lower, upper, deep⟩ := restHypothesis later
          refine ⟨by omega, ?_, deep⟩
          show _ < first + (_ + 1 + _)
          omega
      · rename_i passes
        rw [if_neg passes, Outline.count_append]
        rcases Outline.has_append.1 has with within | later
        · obtain ⟨lower, upper, deep⟩ := insideHypothesis within
          exact ⟨lower, by omega, deep⟩
        · obtain ⟨lower, upper, deep⟩ := restHypothesis later
          exact ⟨by omega, by omega, deep⟩

/-- No node is in an outline twice. -/
theorem Content.eq_of_has {vocabulary : Vocabulary} {around : List Construct} {depth first : Nat}
    {content : Content} {id : NodeId} {left right : Construct} {leftBelow rightBelow : Outline}
    (hasLeft : (content.outline vocabulary around depth first).Has id left leftBelow)
    (hasRight : (content.outline vocabulary around depth first).Has id right rightBelow) :
    left = right ∧ leftBelow = rightBelow := by
  induction content generalizing around depth first with
  | nothing => cases hasLeft
  | tag name attributes inside rest insideHypothesis restHypothesis =>
      rw [outline_tag] at hasLeft hasRight
      split at hasLeft
      · rename_i opens
        rw [if_pos opens] at hasRight
        rcases hasLeft with ⟨rfl, rfl, rfl⟩ | withinLeft | laterLeft
        · rcases hasRight with ⟨-, rfl, rfl⟩ | within | later
          · exact ⟨rfl, rfl⟩
          · have bounds := (bounds_of_has within).1
            dsimp only at bounds
            omega
          · have bounds := (bounds_of_has later).1
            dsimp only at bounds
            omega
        · have boundsLeft := bounds_of_has withinLeft
          rcases hasRight with ⟨rfl, -, -⟩ | within | later
          · have bounds := boundsLeft.1
            dsimp only at bounds
            omega
          · exact insideHypothesis withinLeft within
          · have bounds := (bounds_of_has later).1
            omega
        · have boundsLeft := (bounds_of_has laterLeft).1
          rcases hasRight with ⟨rfl, -, -⟩ | within | later
          · dsimp only at boundsLeft
            omega
          · have bounds := bounds_of_has within
            omega
          · exact restHypothesis laterLeft later
      · rename_i passes
        rw [if_neg passes] at hasRight
        rcases Outline.has_append.1 hasLeft with withinLeft | laterLeft
        · rcases Outline.has_append.1 hasRight with within | later
          · exact insideHypothesis withinLeft within
          · have boundsLeft := bounds_of_has withinLeft
            have bounds := (bounds_of_has later).1
            omega
        · rcases Outline.has_append.1 hasRight with within | later
          · have boundsLeft := (bounds_of_has laterLeft).1
            have bounds := bounds_of_has within
            omega
          · exact restHypothesis laterLeft later

end XmlSchema
