import Mathlib.Data.List.Induction
import XmlSchema.Proofs.Groups.Inlining
import XmlSchema.Proofs.Tree.Growth

/-!
# Nodes opened inside others

A node is sheltered if its tag stands inside that of another node. A document can also have tags
outside its schema, and a node that is opened there can stay open to the end and get children that
are not sheltered. No such node is reached from the schema, not even through the definition of a
group. For the children of a schema, of a group and of a sheltered node are sheltered, `Shelters`,
and a node that stays open is none of these, `Nested`. So whatever is below the schema after the
expansion of groups is sheltered: `meetsInside_of_reaches`.
-/

namespace XmlSchema

namespace Context

/-- The kind of a declaration. -/
def kind? (context : Context) (id : NodeId) : Option ElementKind :=
  (context.treePart? id).map (·.type.1)

/-- Whether a node has sheltered children only, as a sheltered node, a schema and a group do. -/
def Hosts (sheltered : NodeId → Prop) (context : Context) (id : NodeId) : Prop :=
  sheltered id ∨ context.kind? id = some .schema ∨ context.kind? id = some .group

/-- Some nodes of a context are sheltered, among them the children of all hosts. -/
structure Shelters (sheltered : NodeId → Prop) (context : Context) : Prop where
  older : ∀ id, sheltered id → id.index < context.arena.size
  children : ∀ id, context.Hosts sheltered id → ∀ child ∈ context.children id, sheltered child

variable {before after : Context} {sheltered : NodeId → Prop} {id : NodeId}

theorem kind?_of_element? {context : Context} {element : Element}
    (found : context.element? id = some element) : context.kind? id = some element.kind := by
  unfold kind? treePart?
  rw [found]
  rfl

theorem children_eq_treePart? (context : Context) (id : NodeId) :
    context.children id = ((context.treePart? id).map Element.TreePart.children).getD [] := by
  unfold children treePart?
  rw [Option.map_map]
  rfl

/-- There is no declaration yet where the next node will be. -/
theorem treePart?_nextId (context : Context) :
    context.treePart? context.arena.nextId = none := by
  have absent : context.arena.node? context.arena.nextId = none := node?_nextId context
  unfold treePart? Context.element? Arena.element?
  rw [absent]
  rfl

theorem children_nextId (context : Context) : context.children context.arena.nextId = [] := by
  rw [children_eq_treePart?, treePart?_nextId]
  rfl

theorem hosts_congr (kinds : after.kind? id = before.kind? id) :
    after.Hosts sheltered id ↔ before.Hosts sheltered id := by
  unfold Hosts
  rw [kinds]

/-- A change of neither children nor kinds. -/
theorem Shelters.of_same (shelters : before.Shelters sheltered)
    (children : ∀ id, after.children id = before.children id)
    (kinds : ∀ id, after.kind? id = before.kind? id)
    (size : before.arena.size ≤ after.arena.size) : after.Shelters sheltered where
  older id inside := Nat.lt_of_lt_of_le (shelters.older id inside) size
  children id hosts := by
    rw [children]
    exact shelters.children id ((hosts_congr (kinds id)).1 hosts)

theorem kind?_link (context : Context) (parent child id : NodeId) :
    (context.modifyElement parent fun element =>
      { element with children := element.children ++ [child] }).kind? id = context.kind? id := by
  unfold kind?
  rw [treePart?_link]
  split
  · rw [Option.map_map]
    rfl
  · rfl

/-- A new child of a node that is no host, or a sheltered one of any node. -/
theorem Shelters.link (shelters : before.Shelters sheltered) {parent child : NodeId}
    (fits : before.Hosts sheltered parent → sheltered child) :
    Shelters sheltered (before.modifyElement parent fun element =>
      { element with children := element.children ++ [child] }) := by
  refine ⟨fun id inside => ?_, fun id hosts => ?_⟩
  · have size : (before.modifyElement parent fun element =>
        { element with children := element.children ++ [child] }).arena.size =
        before.arena.size := Arena.size_modifyElement before.arena parent _
    rw [size]
    exact shelters.older id inside
  · have hostsBefore := (hosts_congr (kind?_link before parent child id)).1 hosts
    rw [children_modifyElement]
    split
    · rename_i linked
      rw [linked.1] at hostsBefore
      exact List.forall_mem_append.2 ⟨shelters.children parent hostsBefore,
        List.forall_mem_singleton.2 (fits hostsBefore)⟩
    · exact shelters.children id hostsBefore

end Context

/-- A node is of the kind that its construct makes. -/
theorem Construct.Makes.kind?_eq {context : Context} {id : NodeId} {construct : Construct}
    (makes : construct.Makes context id) : context.kind? id = construct.kind? := by
  cases makes with
  | declaration found kind => exact (Context.kind?_of_element? found).trans kind.symm
  | simpleType found =>
      have node : context.arena.node? id = some (.simple _) := Context.node?_eq_simple_iff.2 found
      unfold Context.kind? Context.treePart? Context.element? Arena.element?
      rw [node]
      rfl

namespace Assembly

/-- The open nodes, with the tags that are open. A node is sheltered if there is the tag of another
around its own. Outside of all tags that make nodes no host is open. -/
inductive Nested (sheltered hosts : NodeId → Prop) : List OpenTag → List NodeId → Prop where
  | outside {tags : List OpenTag} {nodes : List NodeId}
      (free : ∀ tag ∈ tags, tag.opensNode = false) (left : ∀ id ∈ nodes, ¬ hosts id) :
      Nested sheltered hosts tags nodes
  | passing {tag : OpenTag} {tags : List OpenTag} {nodes : List NodeId}
      (passes : tag.opensNode = false) (rest : Nested sheltered hosts tags nodes) :
      Nested sheltered hosts (tag :: tags) nodes
  | opening {tag : OpenTag} {tags : List OpenTag} {id : NodeId} {nodes : List NodeId}
      (opens : tag.opensNode = true)
      (inside : sheltered id ↔ ∃ outer ∈ tags, outer.opensNode = true)
      (rest : Nested sheltered hosts tags nodes) :
      Nested sheltered hosts (tag :: tags) (id :: nodes)

/-- An assembly with some sheltered nodes. -/
structure Sheltering (sheltered : NodeId → Prop) (assembly : Assembly) : Prop where
  context : assembly.context.Shelters sheltered
  nested : Nested sheltered (assembly.context.Hosts sheltered) assembly.openTags assembly.openNodes

variable {before after opened next : Assembly} {sheltered hosts : NodeId → Prop} {tag : OpenTag}
  {tags : List OpenTag} {nodes : List NodeId} {construct : Construct}
  {attributes : Xml.Attributes} {name : String}

namespace Nested

theorem mono {later laterHosts : NodeId → Prop} (nested : Nested sheltered hosts tags nodes)
    (same : ∀ id ∈ nodes, (later id ↔ sheltered id) ∧ (laterHosts id → hosts id)) :
    Nested later laterHosts tags nodes := by
  induction nested with
  | outside free left =>
      exact .outside free fun id member hosting => left id member ((same id member).2 hosting)
  | passing passes _ inductionHypothesis => exact .passing passes (inductionHypothesis same)
  | opening opens inside _ inductionHypothesis =>
      obtain ⟨first, others⟩ := List.forall_mem_cons.1 same
      exact .opening opens (first.1.trans inside) (inductionHypothesis others)

/-- Where no node is open, no open tag has made one. -/
theorem free_of_nil (nested : Nested sheltered hosts tags nodes) (none : nodes = []) :
    ∀ tag ∈ tags, tag.opensNode = false := by
  induction nested with
  | outside free _ => exact free
  | passing passes _ inductionHypothesis =>
      exact List.forall_mem_cons.2 ⟨passes, inductionHypothesis none⟩
  | opening _ _ _ => cases none

/-- The innermost open node is that of the innermost tag, if that tag made one. -/
theorem exists_of_opensNode (nested : Nested sheltered hosts (tag :: tags) nodes)
    (opens : tag.opensNode = true) :
    ∃ id rest, nodes = id :: rest ∧ (sheltered id ↔ ∃ outer ∈ tags, outer.opensNode = true) ∧
      Nested sheltered hosts tags rest := by
  cases nested with
  | outside free _ =>
      rw [free tag (List.mem_cons_self ..)] at opens
      cases opens
  | passing passes _ =>
      rw [passes] at opens
      cases opens
  | opening _ inside rest => exact ⟨_, _, rfl, inside, rest⟩

theorem of_passes (nested : Nested sheltered hosts (tag :: tags) nodes)
    (passes : tag.opensNode = false) : Nested sheltered hosts tags nodes := by
  cases nested with
  | outside free left => exact .outside (List.forall_mem_cons.1 free).2 left
  | passing _ rest => exact rest
  | opening opens _ _ =>
      rw [passes] at opens
      cases opens

/-- Where no open tag has made a node, the open nodes are no hosts. -/
theorem left_of_free (nested : Nested sheltered hosts tags nodes)
    (free : ∀ tag ∈ tags, tag.opensNode = false) : ∀ id ∈ nodes, ¬ hosts id := by
  induction nested with
  | outside _ left => exact left
  | passing _ _ inductionHypothesis =>
      exact inductionHypothesis (List.forall_mem_cons.1 free).2
  | opening opens _ _ =>
      rw [(List.forall_mem_cons.1 free).1] at opens
      cases opens

end Nested

/-! ## Openings -/

theorem Quiet.kind? (quiet : Quiet before after) (id : NodeId) :
    after.context.kind? id = before.context.kind? id := by
  unfold Context.kind?
  rw [quiet.treePart?]

theorem Sheltering.of_quiet (sheltering : before.Sheltering sheltered)
    (quiet : Quiet before after) : after.Sheltering sheltered where
  context := sheltering.context.of_same quiet.context.children quiet.kind?
    (Nat.le_of_eq quiet.context.size.symm)
  nested := by
    rw [quiet.openTags, quiet.openNodes]
    exact sheltering.nested.mono fun id _ => ⟨.rfl, (Context.hosts_congr (quiet.kind? id)).1⟩

/-- A new node has no children yet. -/
theorem Opens.children (opens : Opens construct attributes before after) (id : NodeId) :
    after.context.children id = before.context.children id := by
  by_cases new : id = before.context.arena.nextId
  · subst new
    rw [Context.children_nextId, Context.children_eq_treePart?]
    have holds := opens.holds
    unfold Context.Holds at holds
    cases found : after.context.treePart? before.context.arena.nextId with
    | none => rfl
    | some part =>
        rw [found] at holds
        obtain ⟨kind, -, same⟩ := Option.map_eq_some_iff.1 holds.symm
        exact (congrArg Prod.snd same).symm
  · rw [Context.children_eq_treePart?, Context.children_eq_treePart?, opens.others id new]

/-- The sheltered nodes when a tag has opened a node. -/
def shelteredBy (before : Assembly) (sheltered : NodeId → Prop) (id : NodeId) : Prop :=
  sheltered id ∨
    (id = before.context.arena.nextId ∧ ∃ tag ∈ before.openTags, tag.opensNode = true)

theorem hosts_of_opens (opens : Opens construct attributes before after) {id : NodeId}
    (old : id ≠ before.context.arena.nextId)
    (hosting : after.context.Hosts (before.shelteredBy sheltered) id) :
    before.context.Hosts sheltered id := by
  rcases hosting with (earlier | ⟨isNew, -⟩) | isOuter
  · exact .inl earlier
  · exact absurd isNew old
  · unfold Context.kind? at isOuter
    rw [opens.others id old] at isOuter
    exact .inr isOuter

/-- A tag that opens a node, which is sheltered if it stands inside another. -/
theorem Sheltering.of_opens (sheltering : before.Sheltering sheltered)
    (old : ∀ id ∈ before.openNodes, id ≠ before.context.arena.nextId)
    (opens : Opens construct attributes before after) :
    Sheltering (before.shelteredBy sheltered)
      { after with openTags := ⟨construct, name, true⟩ :: after.openTags } := by
  obtain ⟨⟨older, children⟩, nested⟩ := sheltering
  refine ⟨⟨fun id inside => ?_, fun id hosting child member => ?_⟩, ?_⟩
  · show id.index < after.context.arena.size
    rw [opens.size]
    rcases inside with earlier | ⟨rfl, -⟩
    · exact Nat.lt_succ_of_lt (older id earlier)
    · exact Nat.lt_succ_self _
  · have childBefore : child ∈ before.context.children id := opens.children id ▸ member
    by_cases new : id = before.context.arena.nextId
    · rw [new, Context.children_nextId] at childBefore
      cases childBefore
    · exact .inl (children id (hosts_of_opens opens new hosting) child childBefore)
  · show Nested _ _ (_ :: after.openTags) after.openNodes
    rw [opens.openTags, opens.openNodes]
    have rest := nested.mono fun id member =>
      ⟨(or_iff_left fun isNew => old id member isNew.1 : before.shelteredBy sheltered id ↔ _),
        hosts_of_opens opens (old id member)⟩
    refine .opening rfl ⟨fun inside => ?_, fun outer => .inr ⟨rfl, outer⟩⟩ rest
    rcases inside with earlier | ⟨-, outer⟩
    · exact absurd (older _ earlier) (Nat.lt_irrefl _)
    · exact outer

/-- An opening leaves the sheltered nodes that there were, and the new one if it stands inside
another. -/
theorem exists_sheltering_of_stepOpening (standing : before.Standing)
    (sheltering : before.Sheltering sheltered)
    (taken : before.stepOpening name attributes = .ok opened) :
    ∃ later, opened.Sheltering later ∧ ∀ id, later id → sheltered id ∨
      (id = before.context.arena.nextId ∧
        opened.openNodes = before.context.arena.nextId :: before.openNodes ∧
        ∃ tag ∈ before.openTags, tag.opensNode = true) := by
  obtain ⟨arena, openNodes, openTags, -⟩ := stacks_adoptQualifier before name attributes
  have adopting : (before.adoptQualifier name attributes).Sheltering sheltered := by
    have kinds : ∀ id, (before.adoptQualifier name attributes).context.kind? id =
        before.context.kind? id := by
      intro id
      unfold Context.kind? Context.treePart? Context.element?
      rw [arena]
    refine ⟨sheltering.context.of_same (fun id => ?_) kinds (Nat.le_of_eq (by rw [arena])), ?_⟩
    · unfold Context.children Context.element?
      rw [arena]
    · rw [openTags, openNodes]
      exact sheltering.nested.mono fun id _ => ⟨.rfl, (Context.hosts_congr (kinds id)).1⟩
  have old : ∀ id ∈ (before.adoptQualifier name attributes).openNodes,
      id ≠ (before.adoptQualifier name attributes).context.arena.nextId := by
    rw [openNodes, arena]
    rintro _ member rfl
    have present := standing.stacked.isSome_node? _ member
    rw [Context.node?_nextId] at present
    cases present
  obtain ⟨construct, within, opensNode, -, -, effect, rfl⟩ := exists_effect_of_stepOpening taken
  cases opensNode with
  | false =>
      cases effect with
      | passes _ quiet =>
          obtain ⟨context, nested⟩ := adopting.of_quiet quiet
          exact ⟨sheltered, ⟨context, .passing rfl nested⟩, fun _ => .inl⟩
  | true =>
      have opens := Opens.of_effect effect
      refine ⟨_, adopting.of_opens old opens, fun id inside => ?_⟩
      unfold shelteredBy at inside
      rw [arena, openTags] at inside
      refine inside.imp_right fun ⟨isNew, outer⟩ => ⟨isNew, ?_, outer⟩
      rw [← arena, ← openNodes]
      exact opens.openNodes

/-! ## Closings -/

theorem openNodes_closeGroup (assembly : Assembly) :
    assembly.closeGroup.openNodes = assembly.openNodes.tail := by
  unfold closeGroup
  split
  · rename_i noTop
    rw [List.head?_eq_none_iff.1 noTop]
    rfl
  · dsimp only
    split
    · rfl
    · split
      · split <;> rfl
      · split
        · exact (stacks_linkChild assembly.dropNode _).1
        · rfl

/-- A closing leaves the sheltered nodes that there were. What it leaves open is no host. -/
theorem ClosingEffect.sheltering (effect : ClosingEffect tag before after)
    (shelters : before.context.Shelters sheltered)
    (nested : Nested sheltered (before.context.Hosts sheltered) (tag :: before.openTags)
      before.openNodes)
    (inner : tag.opensNode = true → after.openNodes = before.openNodes →
      ∀ id, before.top? = some id →
        before.context.kind? id ≠ some .schema ∧ before.context.kind? id ≠ some .group) :
    after.Sheltering sheltered := by
  cases effect with
  | passes stays quiet =>
      refine Sheltering.of_quiet ⟨shelters, ?_⟩ quiet
      cases opens : tag.opensNode with
      | false => exact nested.of_passes opens
      | true =>
          obtain ⟨id, rest, open_eq, inside, outer⟩ := nested.exists_of_opensNode opens
          obtain ⟨notSchema, notGroup⟩ := inner opens quiet.openNodes id (by
            unfold top?
            rw [open_eq]
            rfl)
          have alone := stays opens
          rw [open_eq] at alone ⊢
          have free := outer.free_of_nil alone
          refine .outside free (List.forall_mem_cons.2 ⟨?_, outer.left_of_free free⟩)
          rintro (isSheltered | isSchema | isGroup)
          · obtain ⟨around, member, opening⟩ := inside.1 isSheltered
            rw [free around member] at opening
            cases opening
          · exact notSchema isSchema
          · exact notGroup isGroup
  | drops opens _ quiet =>
      obtain ⟨id, rest, open_eq, -, outer⟩ := nested.exists_of_opensNode opens
      have dropped : before.dropNode.Sheltering sheltered := by
        refine ⟨shelters, ?_⟩
        show Nested _ _ before.openTags before.openNodes.tail
        rw [open_eq]
        exact outer
      exact dropped.of_quiet quiet
  | @links child parent rest opens _ open_eq =>
      obtain ⟨id, others, same, inside, outer⟩ := nested.exists_of_opensNode opens
      obtain ⟨rfl, rfl⟩ := List.cons.inj (open_eq.symm.trans same)
      rw [linkChild_eq open_eq]
      refine ⟨shelters.link fun hosting => inside.2 (by_contra fun none => ?_), ?_⟩
      · -- A node that stays open outside of all others is no host.
        have free : ∀ tag ∈ before.openTags, tag.opensNode = false := fun tag member =>
          Bool.eq_false_iff.2 fun opens => none ⟨tag, member, opens⟩
        exact outer.left_of_free free parent (List.mem_cons_self ..) hosting
      · exact outer.mono fun id _ =>
          ⟨.rfl, (Context.hosts_congr (Context.kind?_link before.context parent child id)).1⟩

theorem Sheltering.stepClosing (standing : before.Standing)
    (sheltering : before.Sheltering sheltered) (taken : before.stepClosing = .ok next) :
    next.Sheltering sheltered := by
  obtain ⟨shelters, nested⟩ := sheltering
  obtain ⟨tag, outer, opened, closed⟩ := cases_of_stepClosing taken
  have stacked := standing.stacked
  rw [opened] at nested stacked
  rcases closed with ⟨isSchema, root, single, rfl⟩ | ⟨inside, isClosed⟩
  · have opens := stacked.opensNode_of_schema isSchema
    obtain ⟨id, rest, open_eq, -, outer⟩ := nested.exists_of_opensNode opens
    obtain ⟨-, rfl⟩ := List.cons.inj (single.symm.trans open_eq)
    exact ⟨shelters, outer⟩
  · have effect : ClosingEffect tag { before with openTags := outer } next := by
      rw [isClosed]
      exact effect_closeTag inside stacked.makesNode
    refine effect.sheltering shelters nested fun opens stays id isTop => ?_
    obtain ⟨first, rest, open_eq, made, -⟩ := stacked.exists_of_opensNode opens
    obtain rfl : first = id := by
      have same : before.top? = some id := isTop
      unfold top? at same
      rw [open_eq] at same
      exact Option.some.inj same
    have notGroup : tag.construct ≠ .group := fun isGroup => by
      -- A group never stays open.
      have closes : next.openNodes = before.openNodes.tail := by
        rw [isClosed]
        unfold closeTag
        rw [isGroup, opens]
        exact openNodes_closeGroup _
      have same : before.openNodes.tail = before.openNodes := closes.symm.trans stays
      rw [open_eq] at same
      exact List.cons_ne_self _ _ same.symm
    show before.context.kind? first ≠ some .schema ∧ before.context.kind? first ≠ some .group
    rw [made.kind?_eq]
    generalize tag.construct = construct at inside notGroup
    cases construct
    case schema => exact absurd rfl inside
    case group => exact absurd rfl notGroup
    all_goals exact ⟨by decide, by decide⟩

theorem Sheltering.stepText (sheltering : before.Sheltering sheltered) (text : String) :
    (before.stepText text).Sheltering sheltered :=
  sheltering.of_quiet (quiet_stepText before text)

/-! ## Events -/

/-- A tag among some events makes a node: the events before it lead from the start to an assembly
in which it opens the next one. -/
structure MeetsNode (options : Options) (events earlier : List Xml.Event) (name : String)
    (attributes : Xml.Attributes) (before opened : Assembly) : Prop where
  split : ∃ event later, events = earlier ++ event :: later ∧
    (event = .opening name attributes ∨ event = .empty name attributes)
  reached : earlier.foldlM step (start (.initial options)) = .ok before
  taken : before.stepOpening name attributes = .ok opened
  openNodes : opened.openNodes = before.context.arena.nextId :: before.openNodes

/-- Whether a node is made by a tag among some events that stands inside that of another node. -/
def MeetsInside (options : Options) (events : List Xml.Event) (id : NodeId) : Prop :=
  ∃ earlier name attributes before opened,
    MeetsNode options events earlier name attributes before opened ∧
      id = before.context.arena.nextId ∧ ∃ tag ∈ before.openTags, tag.opensNode = true

variable {options : Options} {events : List Xml.Event}

theorem MeetsInside.append {id : NodeId} (meets : MeetsInside options events id)
    (more : List Xml.Event) : MeetsInside options (events ++ more) id := by
  obtain ⟨earlier, name, attributes, before, opened, node, inside⟩ := meets
  obtain ⟨⟨event, later, split, isTag⟩, reached, taken, openNodes⟩ := node
  refine ⟨earlier, name, attributes, before, opened, ⟨⟨event, later ++ more, ?_, isTag⟩, reached,
    taken, openNodes⟩, inside⟩
  rw [split, List.append_assoc]
  rfl

/-- After some events, sheltered nodes are those of tags that stand inside others. -/
theorem exists_sheltering (completed : events.foldlM step (start (.initial options)) = .ok after) :
    ∃ sheltered, after.Sheltering sheltered ∧
      ∀ id, sheltered id → MeetsInside options events id := by
  induction events using List.reverseRecOn generalizing after with
  | nil =>
      cases foldlM_nil_eq_ok_iff.1 completed
      refine ⟨fun _ => False, ⟨⟨fun _ => False.elim, fun id _ child member => ?_⟩, ?_⟩,
        fun _ => False.elim⟩
      · cases member
      · exact .outside (fun _ member => absurd member List.not_mem_nil)
          fun _ member => absurd member List.not_mem_nil
  | append_singleton earlier event inductionHypothesis =>
      obtain ⟨before, reached, last⟩ := foldlM_append_eq_ok_iff.1 completed
      obtain ⟨next, taken, rest⟩ := foldlM_cons_eq_ok_iff.1 last
      cases foldlM_nil_eq_ok_iff.1 rest
      obtain ⟨sheltered, sheltering, meets⟩ := inductionHypothesis reached
      have standing := (written_foldlM (standing_start (.initial options)) reached).2
      have kept : ∀ id, sheltered id → MeetsInside options (earlier ++ [event]) id :=
        fun id inside => (meets id inside).append [event]
      have opening : ∀ {name attributes opened},
          event = .opening name attributes ∨ event = .empty name attributes →
          before.stepOpening name attributes = .ok opened →
          ∃ later, opened.Sheltering later ∧
            ∀ id, later id → MeetsInside options (earlier ++ [event]) id := by
        intro name attributes opened isTag openedTag
        obtain ⟨later, shelteringLater, new⟩ :=
          exists_sheltering_of_stepOpening standing sheltering openedTag
        refine ⟨later, shelteringLater, fun id inside => ?_⟩
        rcases new id inside with old | ⟨isNew, openNodes, outer⟩
        · exact kept id old
        · exact ⟨earlier, name, attributes, before, opened,
            ⟨⟨event, [], rfl, isTag⟩, reached, openedTag, openNodes⟩, isNew, outer⟩
      cases event with
      | opening name attributes => exact opening (.inl rfl) taken
      | closing => exact ⟨sheltered, sheltering.stepClosing standing taken, kept⟩
      | text content =>
          cases taken
          exact ⟨sheltered, sheltering.stepText content, kept⟩
      | empty name attributes =>
          obtain ⟨opened, openedTag, closed⟩ := exists_opened_of_step_empty taken
          obtain ⟨later, shelteringLater, inside⟩ := opening (.inr rfl) openedTag
          exact ⟨later, shelteringLater.stepClosing (standing.stepOpening openedTag) closed, inside⟩

end Assembly

namespace Context

variable {before after context : Context} {inside : NodeId → Prop}
  {children members : List NodeId}

/-- What is entered as the definition of a group is a group. -/
theorem Written.definesGroups (written : Written before after)
    (groups : before.elementGroups.Every fun _ group => before.IsGroup group.definition) :
    after.elementGroups.Every fun _ group => after.IsGroup group.definition := by
  induction written with
  | refl => exact groups
  | tail _ write inductionHypothesis =>
      have kept := inductionHypothesis.mono fun isGroup => isGroup.mono write.extends
      cases write
      case group found isGroup => exact kept.insertNew ⟨_, found, isGroup⟩
      all_goals exact kept

/-- What children become fits if they do and those of definitions. -/
theorem Inlines.forall_mem (inlines : context.Inlines children members)
    (defined : ∀ definition ∈ groupDefinitions context.elementGroups,
      ∀ child ∈ context.children definition, inside child)
    (fits : ∀ child ∈ children, inside child) : ∀ member ∈ members, inside member := by
  induction inlines with
  | done => exact fun _ member => absurd member List.not_mem_nil
  | keep _ _ inductionHypothesis =>
      obtain ⟨first, rest⟩ := List.forall_mem_cons.1 fits
      exact List.forall_mem_cons.2 ⟨first, inductionHypothesis rest⟩
  | undefined _ _ _ inductionHypothesis | circular _ _ _ _ inductionHypothesis =>
      exact inductionHypothesis (List.forall_mem_cons.1 fits).2
  | splice _ isDefined _ _ _ innerHypothesis inductionHypothesis =>
      exact List.forall_mem_append.2 ⟨innerHypothesis (defined _ (mem_groupDefinitions isDefined)),
        inductionHypothesis (List.forall_mem_cons.1 fits).2⟩

end Context

/-- Everything below the schema, after the expansion of groups, is the node of a tag inside that of
another node. -/
theorem meetsInside_of_reaches {options : Options} {document : Bytes} {context after : Context}
    {root id : NodeId} (read : readTree (.initial options) document = .ok (context, root))
    (expanded : expandGroups root context = .ok after) (reached : after.arena.Reaches root id) :
    id = root ∨
      Assembly.MeetsInside options ((Xml.read document).events.map Xml.Located.value) id := by
  have session : Session options context [root] := .read .start read
  have isSchema := isSchema_readTree read
  have written := written_readTree (.initial options) document
  rw [read] at written
  obtain ⟨assembly, completed, -, rfl⟩ := exists_run_of_readTree read
  obtain ⟨sheltered, sheltering, meets⟩ :=
    Assembly.exists_sheltering (Assembly.foldlM_step_of_run completed)
  have hosted := sheltering.context.children
  have groups := Context.Written.definesGroups written (Table.every_empty _)
  have defined : ∀ definition ∈ groupDefinitions assembly.context.elementGroups,
      ∀ child ∈ assembly.context.children definition, sheltered child := by
    intro definition member
    obtain ⟨group, isValue, rfl⟩ := List.mem_map.1 member
    obtain ⟨entry, isEntry, rfl⟩ := List.mem_map.1 isValue
    obtain ⟨element, found, isGroup⟩ := groups.of_mem_entries isEntry
    exact hosted _ (.inr (.inr (isGroup ▸ Context.kind?_of_element? found)))
  suffices inside : id = root ∨ sheltered id from inside.imp_right (meets id)
  obtain ⟨notes, expands⟩ := exists_expandsGroups expanded
  have inlines := expands.inlines session.consistent.children
  induction reached with
  | root => exact .inl rfl
  | @child parent child element reached found member inductionHypothesis =>
      have hosts : assembly.context.Hosts sheltered parent := by
        rcases inductionHypothesis with rfl | inside
        · obtain ⟨schema, present, kind⟩ := isSchema
          exact .inr (.inl (kind ▸ Context.kind?_of_element? present))
        · exact .inl inside
      have isChild : child ∈ after.children parent :=
        (Context.children_of_element? found).symm ▸ member
      exact .inr ((inlines parent (.inr reached)).forall_mem defined (hosted parent hosts) child
        isChild)

end XmlSchema
