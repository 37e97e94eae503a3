import ScriptTree.Proofs.Productions

/-!
# Plans

A `Plan` is a shape whose symbols may have roles: the names of the parts that the children are.  A
reading of a list of trees gives each of them the role of its symbol (`Plan.Reads`), and lists with
a reading are those with the shape (`Plan.reads_iff`).

Three questions about all readings are answered by recursion on the plan:

- `Plan.symbols`: which symbols are there, and with which roles?
- `Plan.demands`: is there a tree with this role in every reading?
- `Plan.words`: if trees that do not fit a symbol are left out, which roles remain, in which order?

Together they decide whether the trees with a role can be told by their kind and position
(`Plan.findsAll`, `Plan.findsNth`).

## Key results

- `Plan.reads_iff`: a list of trees has a reading exactly if it has the shape
- `Plan.Reads.filter_of_findsAll`, `Plan.Reads.filter_of_findsNth`: the trees with a role are those
  that fit a symbol, or the `n`-th of them
-/

namespace ScriptTree

/-! ## Symbols that exclude or contain each other -/

namespace TokenSet

/-- Do the sets have a member in common? -/
def meets (s t : TokenSet) : Bool := s.bits &&& t.bits != 0

/-- Are all members of the first set in the second? -/
def within (s t : TokenSet) : Bool := s.bits &&& t.bits == s.bits

/-- What is in a set is in any set around it. -/
private theorem contains_of_within {s t : TokenSet} (h : s.within t = true) {k : Kind}
    (hk : s.contains k = true) : t.contains k = true := by
  have h : s.bits &&& t.bits = s.bits := by simpa [within] using h
  rw [contains, ← h, BitVec.getLsbD_and, Bool.and_eq_true] at hk
  exact hk.2

/-- Sets that do not meet have nothing in common. -/
private theorem not_contains_of_meets {s t : TokenSet} (h : s.meets t = false) {k : Kind}
    (hk : t.contains k = true) : s.contains k = false := by
  have h : s.bits &&& t.bits = 0 := by simpa [meets] using h
  have hbit := congrArg (BitVec.getLsbD · k.index) h
  simp only [BitVec.getLsbD_and] at hbit
  rw [contains] at hk ⊢
  simpa [hk] using hbit

end TokenSet

namespace Symbol

/-- Does each tree that fits the second symbol fit the first? -/
def covers : Symbol → Symbol → Bool
  | either leaves nodes, either leaves' nodes' => leaves'.within leaves && nodes'.within nodes
  | either _ nodes, bare k => nodes.contains k
  | bare _, _ => false

/-- Could a tree fit both symbols? -/
def meets : Symbol → Symbol → Bool
  | either leaves nodes, either leaves' nodes' => leaves.meets leaves' || nodes.meets nodes'
  | either _ nodes, bare k => nodes.contains k
  | bare _, _ => true

/-- Could a node fit the symbol? -/
def hasNodes : Symbol → Bool
  | either _ nodes => nodes != .empty
  | bare _ => true

variable {q symbol : Symbol} {t : Tree}

/-- What fits a symbol fits any that covers it. -/
private theorem fits_of_covers (h : q.covers symbol = true) (ht : symbol.fits t = true) :
    q.fits t = true := by
  cases q with
  | bare k => cases h
  | either leaves nodes =>
    cases symbol with
    | bare k =>
      obtain ⟨cs, rfl, -⟩ := Shape.fits_bare.mp ht
      exact h
    | either leaves' nodes' =>
      simp only [covers, Bool.and_eq_true] at h
      cases t with
      | leaf k text => exact TokenSet.contains_of_within h.1 ht
      | node k cs => exact TokenSet.contains_of_within h.2 ht

/-- What fits a symbol does not fit one that it does not meet. -/
theorem not_fits_of_meets (h : q.meets symbol = false) (ht : symbol.fits t = true) :
    q.fits t = false := by
  cases q with
  | bare k => cases h
  | either leaves nodes =>
    cases symbol with
    | bare k =>
      obtain ⟨cs, rfl, -⟩ := Shape.fits_bare.mp ht
      exact h
    | either leaves' nodes' =>
      simp only [meets, Bool.or_eq_false_iff] at h
      cases t with
      | leaf k text => exact TokenSet.not_contains_of_meets h.1 ht
      | node k cs => exact TokenSet.not_contains_of_meets h.2 ht

/-- A symbol that a node fits has nodes. -/
theorem hasNodes_of_fits {k : Kind} {cs : List Tree} (h : symbol.fits (.node k cs) = true) :
    symbol.hasNodes = true := by
  cases symbol with
  | bare j => rfl
  | either leaves nodes =>
    rw [hasNodes, bne_iff_ne]
    rintro rfl
    simp at h

end Symbol

/-! ## Plans -/

/-- A shape in which symbols have roles. -/
inductive Plan where
  | never
  | empty
  | one (role : Option String) (symbol : Symbol)
  | seq (first second : Plan)
  | alt (left right : Plan)
  | many (plan : Plan)
  deriving DecidableEq, Repr

namespace Plan

/-- The shape, with one role for all symbols. -/
def ofShape (role : Option String) : Shape → Plan
  | .never => never
  | .empty => empty
  | .one symbol => one role symbol
  | .seq first second => seq (ofShape role first) (ofShape role second)
  | .alt left right => alt (ofShape role left) (ofShape role right)
  | .many shape => many (ofShape role shape)

/-- Trees that are no part by themselves, such as keywords and delimiters. -/
def plain (shape : Shape) : Plan := ofShape none shape

/-- The part of this name. -/
def part (name : String) (shape : Shape) : Plan := ofShape (some name) shape

/-- Plans one after the other. -/
def row : List Plan → Plan
  | [] => empty
  | plan :: plans => seq plan (row plans)

/-- A plan that may be missing. -/
def opt (plan : Plan) : Plan := alt empty plan

/-- A list with commas, one of them at the end perhaps. -/
def listed (element : Plan) : Plan :=
  opt (row [element, many (row [plain (.token .comma), element]), opt (plain (.token .comma))])

/-- A node of a set with this role, or a semicolon. -/
def orSemicolon (name : String) (set : TokenSet) : Plan :=
  alt (plain (.token .semiColon)) (part name (.nodes set))

/-- The shape without the roles. -/
def shape : Plan → Shape
  | never => .never
  | empty => .empty
  | one _ symbol => .one symbol
  | seq first second => .seq first.shape second.shape
  | alt left right => .alt left.shape right.shape
  | many plan => .many plan.shape

/-- Trees that the plan describes, each with its role. -/
def Reads : Plan → List (Option String × Tree) → Prop
  | never, _ => False
  | empty, zs => zs = []
  | one role symbol, zs => ∃ t, zs = [(role, t)] ∧ symbol.fits t = true
  | seq first second, zs => ∃ xs ys, zs = xs ++ ys ∧ first.Reads xs ∧ second.Reads ys
  | alt left right, zs => left.Reads zs ∨ right.Reads zs
  | many plan, zs => ∃ zss : List (List (Option String × Tree)),
      zs = zss.flatten ∧ ∀ xs ∈ zss, plan.Reads xs

variable {plan : Plan} {zs : List (Option String × Tree)} {q : Symbol} {name : String} {n : Nat}

/-- What a plan reads has its shape. -/
theorem Reads.matches (h : plan.Reads zs) : plan.shape.Matches (zs.map (·.2)) := by
  induction plan generalizing zs with
  | never => exact h
  | empty =>
    obtain rfl : zs = [] := h
    rfl
  | one role symbol =>
    obtain ⟨t, rfl, ht⟩ := h
    exact ⟨t, rfl, ht⟩
  | seq first second ihfirst ihsecond =>
    obtain ⟨xs, ys, rfl, hxs, hys⟩ := h
    exact ⟨_, _, List.map_append, ihfirst hxs, ihsecond hys⟩
  | alt left right ihleft ihright => exact h.imp ihleft ihright
  | many plan ih =>
    obtain ⟨zss, rfl, hall⟩ := h
    refine ⟨zss.map (·.map (·.2)), List.map_flatten, ?_⟩
    intro us hus
    obtain ⟨xs, hxs, rfl⟩ := List.mem_map.mp hus
    exact ih (hall xs hxs)

/-- Trees of the shape of a plan are read by it. -/
private theorem exists_reads {ts : List Tree} (h : plan.shape.Matches ts) :
    ∃ zs, zs.map (·.2) = ts ∧ plan.Reads zs := by
  -- Induction on the plan: the shape tells where the children come from, and so who reads them.
  induction plan generalizing ts with
  | never => exact h.elim
  | empty =>
    obtain rfl : ts = [] := h
    exact ⟨[], rfl, rfl⟩
  | one role symbol =>
    obtain ⟨t, rfl, ht⟩ := h
    exact ⟨[(role, t)], rfl, t, rfl, ht⟩
  | seq first second ihfirst ihsecond =>
    obtain ⟨us, vs, rfl, hus, hvs⟩ := h
    obtain ⟨xs, rfl, hxs⟩ := ihfirst hus
    obtain ⟨ys, rfl, hys⟩ := ihsecond hvs
    exact ⟨xs ++ ys, List.map_append, xs, ys, rfl, hxs, hys⟩
  | alt left right ihleft ihright =>
    obtain h | h := h
    · obtain ⟨zs, hzs, hreads⟩ := ihleft h
      exact ⟨zs, hzs, .inl hreads⟩
    · obtain ⟨zs, hzs, hreads⟩ := ihright h
      exact ⟨zs, hzs, .inr hreads⟩
  | many plan ih =>
    obtain ⟨tss, rfl, hall⟩ := h
    -- The parts of the repetition are read one after the other.
    induction tss with
    | nil => exact ⟨[], rfl, [], rfl, nofun⟩
    | cons us tss ihtss =>
      obtain ⟨xs, rfl, hxs⟩ := ih (hall us List.mem_cons_self)
      obtain ⟨zs, hzs, zss, rfl, hzss⟩ := ihtss fun vs hvs => hall vs (List.mem_cons_of_mem _ hvs)
      refine ⟨xs ++ zss.flatten, ?_, xs :: zss, rfl, ?_⟩
      · rw [List.map_append, hzs, List.flatten_cons]
      intro ys hys
      obtain rfl | hys := List.mem_cons.mp hys
      · exact hxs
      · exact hzss ys hys

/-- The roles do not change what has the shape. -/
theorem reads_iff {ts : List Tree} :
    (∃ zs, zs.map (·.2) = ts ∧ plan.Reads zs) ↔ plan.shape.Matches ts := by
  constructor
  · intro h
    obtain ⟨zs, rfl, hreads⟩ := h
    exact hreads.matches
  · exact exists_reads

/-! ## The symbols of a plan -/

/-- All symbols, with their roles. -/
def symbols : Plan → List (Option String × Symbol)
  | never | empty => []
  | one role symbol => [(role, symbol)]
  | seq first second => first.symbols ++ second.symbols
  | alt left right => left.symbols ++ right.symbols
  | many plan => plan.symbols

/-- Every tree of a reading fits a symbol with the tree's role. -/
theorem Reads.exists_symbol (h : plan.Reads zs) {z : Option String × Tree} (hz : z ∈ zs) :
    ∃ symbol, (z.1, symbol) ∈ plan.symbols ∧ symbol.fits z.2 = true := by
  -- Induction on the plan; a child of a sequence was read by one of its two parts.
  induction plan generalizing zs with
  | never => exact h.elim
  | empty =>
    obtain rfl : zs = [] := h
    cases hz
  | one role symbol =>
    obtain ⟨t, rfl, ht⟩ := h
    obtain rfl := List.mem_singleton.mp hz
    exact ⟨symbol, List.mem_singleton_self _, ht⟩
  | seq first second ihfirst ihsecond =>
    obtain ⟨xs, ys, rfl, hxs, hys⟩ := h
    obtain hz | hz := List.mem_append.mp hz
    · obtain ⟨symbol, hsymbol, ht⟩ := ihfirst hxs hz
      exact ⟨symbol, List.mem_append_left _ hsymbol, ht⟩
    · obtain ⟨symbol, hsymbol, ht⟩ := ihsecond hys hz
      exact ⟨symbol, List.mem_append_right _ hsymbol, ht⟩
  | alt left right ihleft ihright =>
    obtain h | h := h
    · obtain ⟨symbol, hsymbol, ht⟩ := ihleft h hz
      exact ⟨symbol, List.mem_append_left _ hsymbol, ht⟩
    · obtain ⟨symbol, hsymbol, ht⟩ := ihright h hz
      exact ⟨symbol, List.mem_append_right _ hsymbol, ht⟩
  | many plan ih =>
    obtain ⟨zss, rfl, hall⟩ := h
    obtain ⟨xs, hxs, hz⟩ := List.mem_flatten.mp hz
    exact ih (hall xs hxs) hz

/-! ## Roles that are never missing -/

/-- Does every reading have a tree with this role? -/
def demands (name : String) : Plan → Bool
  | never => true
  | empty => false
  | one role _ => role == some name
  | seq first second => first.demands name || second.demands name
  | alt left right => left.demands name && right.demands name
  | many _ => false

/-- What a plan demands is read. -/
theorem Reads.exists_of_demands (h : plan.Reads zs) (hdemands : plan.demands name = true) :
    ∃ z ∈ zs, z.1 = some name := by
  -- A role is demanded by both alternatives, or by one part of a sequence; never by a repetition.
  induction plan generalizing zs with
  | never => exact h.elim
  | empty => cases hdemands
  | one role symbol =>
    obtain ⟨t, rfl, -⟩ := h
    exact ⟨(role, t), List.mem_singleton_self _, by simpa [demands] using hdemands⟩
  | seq first second ihfirst ihsecond =>
    obtain ⟨xs, ys, rfl, hxs, hys⟩ := h
    rw [demands, Bool.or_eq_true] at hdemands
    obtain hdemands | hdemands := hdemands
    · obtain ⟨z, hz, hname⟩ := ihfirst hxs hdemands
      exact ⟨z, List.mem_append_left _ hz, hname⟩
    · obtain ⟨z, hz, hname⟩ := ihsecond hys hdemands
      exact ⟨z, List.mem_append_right _ hz, hname⟩
  | alt left right ihleft ihright =>
    rw [demands, Bool.and_eq_true] at hdemands
    obtain h | h := h
    · exact ihleft h hdemands.1
    · exact ihright h hdemands.2
  | many plan ih => cases hdemands

/-! ## The order of roles -/

/-- The roles of the trees that fit a symbol, in order, for each way to read the plan.  Nothing if
    there is no bound on them, or if a symbol of the plan contains the other one only partly. -/
def words (q : Symbol) : Plan → Option (List (List (Option String)))
  | never => some []
  | empty => some [[]]
  | one role symbol =>
    if q.covers symbol then some [[role]] else if q.meets symbol then none else some [[]]
  | seq first second =>
    (first.words q).bind fun us =>
      (second.words q).map fun vs => us.flatMap fun u => vs.map (u ++ ·)
  | alt left right => (left.words q).bind fun us => (right.words q).map (us ++ ·)
  | many plan => (plan.words q).bind fun us => if us.all (·.isEmpty) then some [[]] else none

/-- The names that a symbol fits are read in one of the orders that the plan foresees. -/
private theorem Reads.mem_words (h : plan.Reads zs) {ws : List (List (Option String))}
    (hws : plan.words q = some ws) : (zs.filter (q.fits ·.2)).map (·.1) ∈ ws := by
  -- Induction on the plan: what was read, cut down to the trees that fit, is one of its words.
  induction plan generalizing zs ws with
  | never => exact h.elim
  | empty =>
    obtain rfl : zs = [] := h
    cases hws
    exact List.mem_singleton_self _
  | one role symbol =>
    obtain ⟨t, rfl, ht⟩ := h
    rw [words] at hws
    split at hws
    · next hcovers =>
      cases hws
      simp [Symbol.fits_of_covers hcovers ht]
    -- Every tree of the symbol fits, or none does.
    · split at hws
      · cases hws
      · next hmeets =>
        cases hws
        simp [Symbol.not_fits_of_meets (Bool.eq_false_iff.mpr hmeets) ht]
  | seq first second ihfirst ihsecond =>
    obtain ⟨xs, ys, rfl, hxs, hys⟩ := h
    simp only [words, Option.bind_eq_some_iff, Option.map_eq_some_iff] at hws
    obtain ⟨us, hus, vs, hvs, rfl⟩ := hws
    rw [List.filter_append, List.map_append]
    exact List.mem_flatMap.mpr ⟨_, ihfirst hxs hus, List.mem_map.mpr ⟨_, ihsecond hys hvs, rfl⟩⟩
  | alt left right ihleft ihright =>
    simp only [words, Option.bind_eq_some_iff, Option.map_eq_some_iff] at hws
    obtain ⟨us, hus, vs, hvs, rfl⟩ := hws
    obtain h | h := h
    · exact List.mem_append_left _ (ihleft h hus)
    · exact List.mem_append_right _ (ihright h hvs)
  | many plan ih =>
    obtain ⟨zss, rfl, hall⟩ := h
    simp only [words, Option.bind_eq_some_iff, Option.ite_none_right_eq_some,
      Option.some.injEq] at hws
    -- The words of a repeated plan are empty, so nothing in it fits.
    obtain ⟨us, hus, hempty, rfl⟩ := hws
    have hnone : ∀ xs ∈ zss, xs.filter (q.fits ·.2) = [] := by
      intro xs hxs
      have hword := List.all_eq_true.mp hempty _ (ih (hall xs hxs) hus)
      simpa only [List.isEmpty_iff, List.map_eq_nil_iff] using hword
    have hflat : zss.flatten.filter (q.fits ·.2) = [] := by
      rw [List.filter_flatten, List.flatten_eq_nil_iff]
      intro ys hys
      obtain ⟨xs, hxs, rfl⟩ := List.mem_map.mp hys
      exact hnone xs hxs
    simp [hflat]

/-! ## Finding what has a role -/

/-- Is the role at index `n`, if there is one, and nowhere else? -/
def onlyAt (name : String) : Nat → List (Option String) → Bool
  | _, [] => true
  | 0, role :: roles => role == some name && !roles.contains (some name)
  | n + 1, role :: roles => role != some name && onlyAt name n roles

/-- If a name occurs at one place only, what has it is what stands there. -/
private theorem filter_of_onlyAt {α : Type} {xs : List (Option String × α)}
    (h : onlyAt name n (xs.map (·.1)) = true) :
    xs.filter (·.1 == some name) = xs[n]?.toList := by
  induction xs generalizing n with
  | nil => rfl
  | cons x xs ih =>
    cases n with
    | zero =>
      simp only [List.map_cons, onlyAt, Bool.and_eq_true, Bool.not_eq_true'] at h
      -- The role was found here, so it does not occur again.
      have hrest : xs.filter (·.1 == some name) = [] := by
        rw [List.filter_eq_nil_iff]
        intro y hy hrole
        have hmem : some name ∈ xs.map (·.1) := List.mem_map.mpr ⟨y, hy, beq_iff_eq.mp hrole⟩
        simp [hmem] at h
      rw [List.filter_cons, if_pos h.1, hrest]
      rfl
    | succ n =>
      simp only [List.map_cons, onlyAt, Bool.and_eq_true] at h
      rw [List.filter_cons, if_neg (by simpa using h.1), ih h.2]
      rfl

/-- Are the trees with this role those that fit the symbol? -/
def findsAll (plan : Plan) (name : String) (q : Symbol) : Bool :=
  plan.symbols.all fun (role, symbol) =>
    if role == some name then q.covers symbol else !q.meets symbol

/-- Is the tree with this role the `n`-th one that fits the symbol? -/
def findsNth (plan : Plan) (name : String) (q : Symbol) (n : Nat) : Bool :=
  (plan.symbols.all fun (role, symbol) => role != some name || q.covers symbol) &&
    (plan.words q).any fun ws => ws.all (onlyAt name n)

variable {α : Type} {tree : α → Tree} {xs : List (Option String × α)}

/-- If a symbol finds all, it fits exactly what has the name. -/
theorem Reads.filter_of_findsAll (h : plan.Reads (xs.map fun x => (x.1, tree x.2)))
    (hfinds : plan.findsAll name q = true) :
    xs.filter (·.1 == some name) = xs.filter (q.fits <| tree ·.2) := by
  refine List.filter_congr fun x hx => ?_
  obtain ⟨symbol, hsymbol, ht⟩ := h.exists_symbol (List.mem_map_of_mem hx)
  have hx := List.all_eq_true.mp hfinds _ hsymbol
  simp only at hx ht
  split at hx
  · next hrole => rw [hrole, Symbol.fits_of_covers hx ht]
  · next hrole =>
    rw [Bool.eq_false_iff.mpr hrole, Symbol.not_fits_of_meets (by simpa using hx) ht]

/-- If a symbol finds the `n`-th, that is what has the name. -/
theorem Reads.filter_of_findsNth (h : plan.Reads (xs.map fun x => (x.1, tree x.2)))
    (hfinds : plan.findsNth name q n = true) :
    xs.filter (·.1 == some name) = (xs.filter (q.fits <| tree ·.2))[n]?.toList := by
  rw [findsNth, Bool.and_eq_true] at hfinds
  obtain ⟨hsymbols, hwords⟩ := hfinds
  -- What has the role fits the symbol, so nothing is lost if only trees that fit are looked at.
  have hfits : xs.filter (·.1 == some name) =
      (xs.filter (q.fits <| tree ·.2)).filter (·.1 == some name) := by
    rw [List.filter_filter]
    refine List.filter_congr fun x hx => ?_
    obtain ⟨symbol, hsymbol, ht⟩ := h.exists_symbol (List.mem_map_of_mem hx)
    have hx := List.all_eq_true.mp hsymbols _ hsymbol
    simp only [Bool.or_eq_true, bne_iff_ne] at hx ht
    obtain hrole | hcovers := hx
    · simp [hrole]
    · simp [Symbol.fits_of_covers hcovers ht]
  -- The word says where the roles of the trees that fit are, hence which tree is found.
  cases hws : plan.words q with
  | none => simp [hws] at hwords
  | some ws =>
    rw [hws, Option.any_some] at hwords
    have hword := h.mem_words hws
    rw [List.filter_map, List.map_map] at hword
    rw [hfits]
    exact filter_of_onlyAt (List.all_eq_true.mp hwords _ hword)

end Plan

end ScriptTree
