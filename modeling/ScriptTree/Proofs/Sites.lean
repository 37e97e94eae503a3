import ScriptTree.Proofs.View

/-!
# Nodes in their places

A `Site` is a node with the leaves before it, its own leaves and the leaves after it.  What a rule
knows when it opens a node is a condition on the tokens from there on, and those are the node's own
leaves and what follows them (`Tree.AllSites`).

While a tree is built, what follows is still to be read.  `State.Surveyed` says that each node that
was placed meets a condition on its site, with one lemma for each way in which a frame grows.

## Key results

- `Tree.spells_of_mem_sites`: a site shows all leaves of the tree, in order
- `Tree.allSites_append`: sites of trees one after the other
- `State.Surveyed.pushNode`: a node is placed if it meets the condition
-/

namespace ScriptTree

/-- A node with the leaves before it, its own leaves and the leaves after it. -/
structure Site where
  kind : Kind
  before : List (Kind × String)
  own : List (Kind × String)
  after : List (Kind × String)
  deriving DecidableEq, Repr

namespace Tree

mutual

/-- The nodes of a tree in their places. -/
def sites (before after : List (Kind × String)) : Tree → List Site
  | leaf _ _ => []
  | node kind children =>
    ⟨kind, before, leavesOf children, after⟩ :: sitesOf before after children

/-- The nodes of several trees in their places. -/
def sitesOf (before after : List (Kind × String)) : List Tree → List Site
  | [] => []
  | t :: ts => t.sites before (leavesOf ts ++ after) ++ sitesOf (before ++ t.leaves) after ts

end

section

variable {before after : List (Kind × String)} {ts us : List Tree}

@[simp] theorem sitesOf_nil : sitesOf before after [] = [] := by simp [sitesOf]

@[simp] theorem sitesOf_leaf {k : Kind} {text : String} :
    sitesOf before after [leaf k text] = [] := by
  simp [sitesOf, sites]

/-- The sites of a node are its own and those in its children. -/
@[simp] theorem sitesOf_node {k : Kind} {cs : List Tree} :
    sitesOf before after [node k cs] =
      ⟨k, before, leavesOf cs, after⟩ :: sitesOf before after cs := by
  simp [sitesOf, sites]

end

mutual

/-- What is before a node, its own and behind it is the text of the tree. -/
theorem spells_of_mem_sites (before after : List (Kind × String)) : ∀ (t : Tree) (site : Site),
    site ∈ t.sites before after →
      site.before ++ site.own ++ site.after = before ++ t.leaves ++ after
  | leaf _ _, site, h => by simp [sites] at h
  | node k cs, site, h => by
    rw [sites] at h
    obtain rfl | h := List.mem_cons.mp h
    · simp
    · simpa using spells_of_mem_sitesOf before after cs site h

/-- What is before a node, its own and behind it is the text of the trees. -/
private theorem spells_of_mem_sitesOf (before after : List (Kind × String)) :
    ∀ (ts : List Tree) (site : Site), site ∈ sitesOf before after ts →
      site.before ++ site.own ++ site.after = before ++ leavesOf ts ++ after
  | [], site, h => by simp at h
  | t :: ts, site, h => by
    rw [sitesOf] at h
    obtain h | h := List.mem_append.mp h
    · simpa using spells_of_mem_sites before (leavesOf ts ++ after) t site h
    · simpa using spells_of_mem_sitesOf (before ++ t.leaves) after ts site h

end

/-! ## Conditions on sites -/

/-- A condition on a node: its kind, its own leaves and the leaves after it. -/
abbrev SiteCondition : Type := Kind → List (Kind × String) → List (Kind × String) → Prop

mutual

/-- All nodes of a tree meet a condition. -/
def SitesMeet (P : SiteCondition) (after : List (Kind × String)) : Tree → Prop
  | leaf _ _ => True
  | node kind children => P kind (leavesOf children) after ∧ AllSites P after children

/-- All nodes of several trees meet a condition. -/
def AllSites (P : SiteCondition) (after : List (Kind × String)) : List Tree → Prop
  | [] => True
  | t :: ts => t.SitesMeet P (leavesOf ts ++ after) ∧ AllSites P after ts

end

section

variable {P : SiteCondition} {after : List (Kind × String)} {ts us : List Tree}

@[simp] theorem allSites_nil : AllSites P after [] := by simp [AllSites]

@[simp] theorem allSites_leaf {k : Kind} {text : String} : AllSites P after [leaf k text] := by
  simp [AllSites, SitesMeet]

/-- The sites of a node are its own and those in its children. -/
@[simp] theorem allSites_node {k : Kind} {cs : List Tree} :
    AllSites P after [node k cs] ↔ P k (leavesOf cs) after ∧ AllSites P after cs := by
  simp [AllSites, SitesMeet]

/-- Trees are followed by the leaves of those behind them. -/
@[simp] theorem allSites_append : AllSites P after (ts ++ us) ↔
    AllSites P (leavesOf us ++ after) ts ∧ AllSites P after us := by
  induction ts with
  | nil => simp
  | cons t ts ih => simp [AllSites, ih, and_assoc]

end

mutual

/-- What all sites of a tree meet holds of each one. -/
theorem SitesMeet.of_mem {P : SiteCondition} {before after : List (Kind × String)} :
    ∀ {t : Tree}, t.SitesMeet P after → ∀ site ∈ t.sites before after,
      P site.kind site.own site.after
  | leaf _ _, _, site, hsite => by simp [sites] at hsite
  | node k cs, h, site, hsite => by
    rw [SitesMeet] at h
    rw [sites] at hsite
    obtain rfl | hsite := List.mem_cons.mp hsite
    · exact h.1
    · exact AllSites.of_mem h.2 site hsite

/-- What all sites of some trees meet holds of each one. -/
theorem AllSites.of_mem {P : SiteCondition} {before after : List (Kind × String)} :
    ∀ {ts : List Tree}, AllSites P after ts → ∀ site ∈ sitesOf before after ts,
      P site.kind site.own site.after
  | [], _, site, hsite => by simp at hsite
  | t :: ts, h, site, hsite => by
    rw [AllSites] at h
    rw [sitesOf] at hsite
    obtain hsite | hsite := List.mem_append.mp hsite
    · exact SitesMeet.of_mem h.1 site hsite
    · exact AllSites.of_mem h.2 site hsite

end

mutual

/-- Leaves that are not in the tree yet come after all others. -/
theorem SitesMeet.of_append {P : SiteCondition} {after unread : List (Kind × String)} :
    ∀ {t : Tree}, t.SitesMeet P (after ++ unread) →
      t.SitesMeet (fun k own after => P k own (after ++ unread)) after
  | leaf _ _, _ => by simp [SitesMeet]
  | node k cs, h => by
    rw [SitesMeet] at h ⊢
    exact ⟨h.1, AllSites.of_append h.2⟩

/-- What is behind the trees may be counted to the condition. -/
theorem AllSites.of_append {P : SiteCondition} {after unread : List (Kind × String)} :
    ∀ {ts : List Tree}, AllSites P (after ++ unread) ts →
      AllSites (fun k own after => P k own (after ++ unread)) after ts
  | [], _ => by simp
  | t :: ts, h => by
    rw [AllSites] at h ⊢
    rw [← List.append_assoc] at h
    exact ⟨SitesMeet.of_append h.1, AllSites.of_append h.2⟩

end

end Tree

/-! ## Trees under construction -/

namespace State

variable {g : Setting} {P : Tree.SiteCondition} {labels : List (Kind × String)} {s s' s₁ : State}

/-- The frame and the tokens ahead spell `labels`, and all nodes of the frame meet a condition. -/
structure Surveyed (P : Tree.SiteCondition) (labels : List (Kind × String)) (s : State) : Prop where
  waits : s.Waits
  spelled : Tree.leavesOf s.reading.frame ++ s.reading.input = labels
  sites : Tree.AllSites P s.reading.input s.reading.frame

/-- What is surveyed depends on the reading only. -/
theorem Surveyed.of_reading (h : s.Surveyed P labels) (hwaits : s'.Waits)
    (hreading : s'.reading = s.reading) : s'.Surveyed P labels :=
  ⟨hwaits, hreading ▸ h.spelled, hreading ▸ h.sites⟩

/-- A token that is eaten follows the nodes before it, as it did while it was still ahead. -/
theorem Surveyed.of_eats (h : s.Surveyed P labels) (hwaits : s'.Waits) {k : Kind}
    (heats : s.reading.Eats k s'.reading) : s'.Surveyed P labels := by
  obtain ⟨text, hinput, hframe⟩ := heats
  have hspelled := h.spelled
  have hsites := h.sites
  rw [hinput] at hspelled hsites
  refine ⟨hwaits, ?_, ?_⟩
  · rw [hframe, ← hspelled]
    simp
  · rw [hframe]
    simpa using hsites

/-- A closer is eaten if it is there. -/
theorem Surveyed.closeDelimiter (h : s.Surveyed P labels) {d : Delimiter} {construct : String}
    (hclose : s.closeDelimiter g d construct = .ok s') : s'.Surveyed P labels := by
  obtain ⟨hwaits, heats | ⟨-, hreading⟩⟩ := h.waits.closeDelimiter hclose
  · exact h.of_eats hwaits heats
  · exact h.of_reading hwaits hreading

/-- In an empty frame there is nothing to survey. -/
theorem surveyed_emptied : ({ s.drain with frame := #[] } : State).Surveyed P s.reading.input := by
  refine ⟨waits_drain (s := s), ?_, ?_⟩
  · simp [reading_emptied]
  · simp [reading_emptied]

/-- A node is placed if it meets the condition. -/
theorem Surveyed.pushNode (h : s.Surveyed P labels) (h₁ : s₁.Surveyed P s.reading.input) {k : Kind}
    (hk : P k (Tree.leavesOf s₁.reading.frame) s₁.reading.input) :
    ({ s₁ with frame := s.drain.frame.push (.node k s₁.frame.toList) } : State).Surveyed P
      labels := by
  have hspelled := h₁.spelled
  refine ⟨h₁.waits, ?_, ?_⟩
  · rw [reading_pushNode h.waits, ← h.spelled, ← hspelled]
    simp
  · have hsites := h.sites
    rw [← hspelled] at hsites
    rw [reading_pushNode h.waits]
    simpa using ⟨hsites, hk, h₁.sites⟩

/-- What was read apart is put back. -/
theorem Surveyed.appendFrame (h : s.Surveyed P labels) (h₁ : s₁.Surveyed P s.reading.input) :
    ({ s₁ with frame := s.drain.frame ++ s₁.frame } : State).Surveyed P labels := by
  have hspelled := h₁.spelled
  refine ⟨h₁.waits, ?_, ?_⟩
  · rw [reading_appendFrame h.waits, ← h.spelled, ← hspelled]
    simp
  · have hsites := h.sites
    rw [← hspelled] at hsites
    rw [reading_appendFrame h.waits]
    simpa using ⟨hsites, h₁.sites⟩

/-- A node around the whole frame is placed if it meets the condition. -/
theorem Surveyed.wrapped (h : s.Surveyed P labels) {k : Kind}
    (hk : P k (Tree.leavesOf s.reading.frame) s.reading.input) :
    ({ s with frame := #[.node k s.frame.toList] } : State).Surveyed P labels := by
  refine ⟨h.waits, ?_, ?_⟩
  · rw [reading_wrapped]
    simpa using h.spelled
  · rw [reading_wrapped]
    simpa using ⟨hk, h.sites⟩

end State

end ScriptTree
