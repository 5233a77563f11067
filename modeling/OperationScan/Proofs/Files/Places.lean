import OperationScan.Files.Tree
import OperationScan.Proofs.Text.Pieces
import OperationScan.Proofs.Value.Members

/-!
# What stands at a place

The place of a path is the chain of names from the root to it. What a tree holds at one place does
not change when something is put at another, unless one of the two lies below the other.

* `Entry.below?`: the entry at the end of a chain of names.
* `Entry.below?_insert_of_apart`: entries at other places stay.
* `FileTree.held?`: what a tree holds at the place of a path.
* `FileTree.Plain.find_eq`: what is found at a path without detours is what the tree holds there.
-/

namespace OperationScan

/-! ## Entries by their names -/

namespace Entry

/-- The entry at the end of a chain of names below another. -/
def below? : List Text → Entry → Option Entry
  | [], e => some e
  | name :: rest, e => (Members.get? e.entries name).bind (below? rest)

theorem below?_insert_self (e : Entry) (names : List Text) (base : Entry) :
    below? names (insert e names base) = some e := by
  induction names generalizing base with
  | nil => rfl
  | cons name rest ih =>
    rw [insert, below?, entries, Members.get?_put, if_pos rfl]
    exact ih _

/-- An entry that is neither on the way to a new one nor below it stays. -/
theorem below?_insert_of_apart (e : Entry) {names other : List Text} (base : Entry)
    (habove : ¬ other <+: names) (hbelow : ¬ names <+: other) :
    below? other (insert e names base) = below? other base := by
  induction names generalizing other base with
  | nil => exact absurd List.nil_prefix hbelow
  | cons name rest ih =>
    cases other with
    | nil => exact absurd List.nil_prefix habove
    | cons first more =>
      rw [insert, below?, below?, entries, Members.get?_put]
      by_cases hfirst : first = name
      · subst hfirst
        rw [List.prefix_cons_inj] at habove hbelow
        rw [if_pos rfl, Option.bind_some, ih _ habove hbelow]
        cases hget : Members.get? base.entries first with
        | some inner => rfl
        | none =>
          -- the folder that is made on the way holds nothing else
          cases more with
          | nil => exact absurd List.nil_prefix habove
          | cons second more => rfl
      · rw [if_neg hfirst]

end Entry

namespace FileTree

/-- What a tree holds at the place of a path. -/
def held? (t : FileTree) (path : Text) : Option Entry := t.root.below? (t.resolve path)

theorem held?_put_self (t : FileTree) (path : Text) (e : Entry) :
    (t.put path e).held? path = some e :=
  Entry.below?_insert_self e _ _

theorem held?_put_of_apart (t : FileTree) {path other : Text} (e : Entry)
    (habove : ¬ t.resolve other <+: t.resolve path)
    (hbelow : ¬ t.resolve path <+: t.resolve other) :
    (t.put path e).held? other = t.held? other :=
  Entry.below?_insert_of_apart e _ habove hbelow

/-- A name that leads one step further. -/
def IsStep (name : Text) : Prop := name ≠ [] ∧ name ≠ ['.'] ∧ name ≠ ['.', '.']

instance (name : Text) : Decidable (IsStep name) := inferInstanceAs (Decidable (_ ∧ _))

theorem resolveFrom_append (start names more : List Text) :
    resolveFrom start (names ++ more) = resolveFrom (resolveFrom start names) more :=
  List.foldl_append ..

theorem resolveFrom_step (start : List Text) {name : Text} (h : IsStep name) :
    resolveFrom start [name] = start ++ [name] := by
  obtain ⟨hempty, hdot, hdots⟩ := h
  simp [resolveFrom, hempty, hdot, hdots]

/-- The place of a name in a folder. -/
theorem resolve_child (t : FileTree) {folder name : Text} (hroot : folder.head? = some '/')
    (hstep : IsStep name) (hslash : '/' ∉ name) :
    t.resolve (folder ++ '/' :: name) = t.resolve folder ++ [name] := by
  obtain ⟨rest, rfl⟩ := List.head?_eq_some_iff.mp hroot
  rw [resolve, resolve, Text.splitOn_append, Text.splitOn_of_notMem hslash, resolveFrom_append]
  exact resolveFrom_step _ hstep

/-! ## Paths without detours -/

/-- The names from the root on that a path is spelled with. -/
def spelled (t : FileTree) (path : Text) : List Text :=
  if path.head? == some '/' then (Text.splitOn '/' path).tail else t.here ++ Text.splitOn '/' path

/-- Every name of a path leads one step further, nothing is too long, and the system lets one
look. -/
structure Plain (t : FileTree) (path : Text) : Prop where
  allowed : t.refusals.fault? .look path = none
  noNull : path.any (· == Char.ofNat 0) = false
  nonempty : path ≠ []
  size : Text.Utf8.size path ≤ pathLimit
  steps : ∀ name ∈ t.spelled path, IsStep name
  sizes : ∀ name ∈ t.spelled path, Text.Utf8.size name ≤ nameLimit

variable {t : FileTree} {path : Text}

theorem step_of_isStep {entries : List (Text × Entry)} {above : List Entry} {name : Text}
    (hstep : IsStep name) (hsize : Text.Utf8.size name ≤ nameLimit) :
    step (.folder entries, above) name =
      match Members.get? entries name with
      | some e => .ok (e, .folder entries :: above)
      | none => .error .missing := by
  obtain ⟨hempty, hdot, hdots⟩ := hstep
  have hcounts : ¬ (name.isEmpty || name == ['.']) = true := by simp [hempty, hdot]
  have hdown : ¬ (name == ['.', '.']) = true := by simpa using hdots
  unfold step
  dsimp only
  rw [if_neg hcounts, if_neg hdown, if_neg (Nat.not_lt.mpr hsize)]
  rfl

/-- Walking along names that lead further ends at the entry below, if there is one. -/
theorem walk_of_steps {names : List Text} (hsteps : ∀ name ∈ names, IsStep name)
    (hsizes : ∀ name ∈ names, Text.Utf8.size name ≤ nameLimit) (e : Entry) (above : List Entry) :
    (∀ x, Entry.below? names e = some x → ∃ around, walk names (e, above) = .ok (x, around)) ∧
      (Entry.below? names e = none →
        walk names (e, above) = .error .missing ∨ walk names (e, above) = .error .notFolder) := by
  induction names generalizing e above with
  | nil =>
    refine ⟨fun x hx => ⟨above, ?_⟩, fun hnone => by cases hnone⟩
    cases hx
    rfl
  | cons name rest ih =>
    rw [List.forall_mem_cons] at hsteps hsizes
    cases e with
    | file bytes =>
      refine ⟨fun x hx => ?_, fun _ => .inr rfl⟩
      cases hx
    | folder entries =>
      rw [walk, step_of_isStep hsteps.1 hsizes.1, Entry.below?, Entry.entries]
      cases Members.get? entries name with
      | some inner => exact ih hsteps.2 hsizes.2 inner _
      | none =>
        refine ⟨fun x hx => ?_, fun _ => .inl rfl⟩
        cases hx

theorem resolveFrom_steps (start : List Text) {names : List Text}
    (h : ∀ name ∈ names, IsStep name) : resolveFrom start names = start ++ names := by
  induction names generalizing start with
  | nil => exact (List.append_nil start).symm
  | cons name rest ih =>
    rw [List.forall_mem_cons] at h
    rw [← List.singleton_append, resolveFrom_append, resolveFrom_step start h.1, ih _ h.2,
      List.append_assoc]

/-- A path from the root begins with the empty name in front of its first slash. -/
theorem splitOn_slash (rest : Text) :
    Text.splitOn '/' ('/' :: rest) = [] :: Text.splitOn '/' rest :=
  Text.splitOn_append '/' [] rest

theorem Plain.resolve_eq (h : t.Plain path) : t.resolve path = t.spelled path := by
  have hsteps := h.steps
  unfold spelled at hsteps ⊢
  unfold resolve
  split at hsteps
  · rename_i hroot
    obtain ⟨rest, rfl⟩ := List.head?_eq_some_iff.mp (beq_iff_eq.mp hroot)
    rw [splitOn_slash] at hsteps ⊢
    exact (resolveFrom_append [] [[]] _).trans (resolveFrom_steps [] hsteps)
  · rename_i hroot
    rw [if_neg hroot, if_neg hroot]
    exact resolveFrom_steps _ fun name hname => hsteps name (List.mem_append_right _ hname)

theorem walk_append (names more : List Text) (stack : Entry × List Entry) :
    walk (names ++ more) stack = (walk names stack).bind (walk more) := by
  induction names generalizing stack with
  | nil => rfl
  | cons name rest ih =>
    rw [List.cons_append, walk, walk]
    cases step stack name with
    | error f => rfl
    | ok next => exact ih next

theorem Plain.locate_eq (h : t.Plain path) :
    t.locate path = walk (t.spelled path) (t.root, []) := by
  unfold locate spelled
  rw [if_neg (ne_true_of_eq_false h.noNull), if_neg (by simpa using h.nonempty),
    if_neg (Nat.not_lt.mpr h.size)]
  split
  · rename_i hroot
    obtain ⟨rest, rfl⟩ := List.head?_eq_some_iff.mp (beq_iff_eq.mp hroot)
    rw [splitOn_slash, List.tail_cons, walk]
    cases t.root with
    | folder entries => rfl
    | file bytes =>
      cases hnames : Text.splitOn '/' rest with
      | nil => exact absurd hnames (Text.splitOn_ne_nil '/' rest)
      | cons name more => rfl
  · exact (walk_append _ _ _).symm

/-- What is found at a path without detours is what the tree holds there. -/
theorem Plain.find_eq (h : t.Plain path) :
    (∀ e, t.held? path = some e → t.find path = .ok e) ∧
      (t.held? path = none → t.find path = .error .missing ∨ t.find path = .error .notFolder) := by
  have hwalk := walk_of_steps h.steps h.sizes t.root []
  rw [held?, h.resolve_eq, find, h.allowed, h.locate_eq]
  refine ⟨fun e he => ?_, fun hnone => ?_⟩
  · obtain ⟨around, hw⟩ := hwalk.1 e he
    rw [hw]
    rfl
  · rcases hwalk.2 hnone with hw | hw
    · exact .inl (by rw [hw]; rfl)
    · exact .inr (by rw [hw]; rfl)

theorem Plain.passes_eq (h : t.Plain path) (test : Entry → Bool) :
    t.passes path test = .ok ((t.held? path).any test) := by
  unfold passes
  cases hheld : t.held? path with
  | some e => rw [h.find_eq.1 e hheld]; rfl
  | none => rcases h.find_eq.2 hheld with hf | hf <;> rw [hf] <;> rfl

theorem Plain.entriesAt_eq (h : t.Plain path) :
    t.entriesAt path = .ok (((t.held? path).map Entry.entries).getD []) := by
  unfold entriesAt
  rw [if_neg (by simpa using h.nonempty)]
  cases hheld : t.held? path with
  | some e => rw [h.find_eq.1 e hheld]; rfl
  | none => rcases h.find_eq.2 hheld with hf | hf <;> rw [hf] <;> rfl

end FileTree

end OperationScan
