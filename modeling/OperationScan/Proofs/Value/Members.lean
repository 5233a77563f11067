import Mathlib.Algebra.Ring.Nat
import Mathlib.Data.List.Induction
import OperationScan.Value

/-!
# Members as maps

A list of members stands for a map whose names keep their order. Giving a name an entry changes
this entry only, and a name comes in once.

* `Members.get?_put`: what is found after an entry has been given.
* `Members.nodup_names_put`: names stay apart.
* `Members.sum_put_succ`: counting one more adds one to the sum of all counts.
* `Members.ofList_eq_self`: a list of distinct names is read as it stands.
* `Members.get?_addNew`, `Members.names_addNew`: names that are added only if they are new.
* `Members.get?_merge`: the second of two merged lists decides.
-/

namespace OperationScan.Members

variable {α : Type}

/-- The names that have an entry. -/
def names (ms : Members α) : List Text := ms.map Prod.fst

theorem get?_nil (name : Text) : get? ([] : Members α) name = none := rfl

theorem get?_cons (m : Text × α) (ms : Members α) (name : Text) :
    get? (m :: ms) name = if name = m.1 then some m.2 else get? ms name := by
  obtain ⟨key, a⟩ := m
  rw [get?, List.lookup_cons]
  by_cases h : name = key
  · simp [h]
  · have hne : (name == key) = false := by simpa using h
    simp only [hne, if_neg h, get?]

theorem has_cons (m : Text × α) (ms : Members α) (name : Text) :
    has (m :: ms) name = (decide (name = m.1) || has ms name) := by
  rw [has, get?_cons]
  by_cases h : name = m.1
  · simp [h]
  · simp [h, has]

theorem has_iff (ms : Members α) (name : Text) : ms.has name = true ↔ name ∈ ms.names := by
  induction ms with
  | nil => simp [has, get?_nil, names]
  | cons m ms ih =>
    rw [has_cons, Bool.or_eq_true, decide_eq_true_eq, ih]
    simp [names]

/-- A name that stands once has the entry beside it. -/
theorem get?_eq_some_iff {ms : Members α} (h : ms.names.Nodup) {name : Text} {a : α} :
    ms.get? name = some a ↔ (name, a) ∈ ms := by
  induction ms with
  | nil => simp [get?_nil]
  | cons m ms ih =>
    simp only [names, List.map_cons, List.nodup_cons] at h
    rw [get?_cons, List.mem_cons]
    split
    · rename_i hname
      subst hname
      constructor
      · rintro ⟨⟩
        exact .inl rfl
      · rintro (hm | hmem)
        · rw [← hm]
        · exact absurd (List.mem_map_of_mem hmem) h.1
    · rename_i hname
      rw [ih h.2]
      refine ⟨.inr, ?_⟩
      rintro (hm | hmem)
      · rw [← hm] at hname
        exact absurd rfl hname
      · exact hmem

theorem put_of_notMem {ms : Members α} {name : Text} (h : name ∉ ms.names) (a : α) :
    ms.put name a = ms ++ [(name, a)] := by
  rw [put, if_neg]
  rwa [has_iff]

/-- Giving a name an entry, seen from the first member on. -/
theorem put_cons (m : Text × α) {ms : Members α} (h : m.1 ∉ ms.names) (name : Text) (a : α) :
    put (m :: ms) name a = if name = m.1 then (m.1, a) :: ms else m :: ms.put name a := by
  have hsame : ∀ {l : Members α}, name ∉ l.names →
      (l.map fun x => if x.1 = name then (name, a) else x) = l := by
    intro l hl
    refine (List.map_congr_left fun x hx => ?_).trans (List.map_id l)
    rw [if_neg, id]
    rintro rfl
    exact hl (List.mem_map_of_mem hx)
  by_cases hm : name = m.1
  · subst hm
    rw [if_pos rfl, put, has_cons, decide_eq_true rfl, Bool.true_or, if_pos rfl, List.map_cons,
      if_pos rfl, hsame h]
  · rw [if_neg hm, put, has_cons, decide_eq_false hm, Bool.false_or, put]
    split
    · rw [List.map_cons, if_neg (Ne.symm hm)]
    · rfl

/-- Replacing the entries of a name, where there is one, changes nothing else. -/
theorem get?_replaced (ms : Members α) (name : Text) (a : α) (other : Text) :
    get? (ms.map fun m => if m.1 = name then (name, a) else m) other =
      if other = name ∧ ms.has name = true then some a else ms.get? other := by
  induction ms with
  | nil => simp [get?_nil, has]
  | cons m ms ih =>
    rw [List.map_cons, get?_cons, get?_cons, has_cons, ih]
    by_cases hm : m.1 = name
    · by_cases hother : other = name
      · simp [hm, hother]
      · simp [hm, hother]
    · by_cases hother : other = name
      · simp [hm, hother, Ne.symm hm]
      · simp [hm, hother]

/-- Only the entry of the name changes. -/
theorem get?_put (ms : Members α) (name : Text) (a : α) (other : Text) :
    (ms.put name a).get? other = if other = name then some a else ms.get? other := by
  unfold put
  split
  · rename_i hhas
    rw [get?_replaced, hhas]
    simp
  · rename_i hnone
    have hget : ms.get? name = none := by simpa [has] using hnone
    rw [get?, List.lookup_append, ← get?, ← get?, get?_cons, get?_nil]
    by_cases hother : other = name
    · simp [hother, hget]
    · simp [hother]

theorem names_put (ms : Members α) (name : Text) (a : α) :
    (ms.put name a).names = if name ∈ ms.names then ms.names else ms.names ++ [name] := by
  by_cases h : name ∈ ms.names
  · rw [if_pos h, put, if_pos ((has_iff ms name).mpr h), names, names, List.map_map]
    refine List.map_congr_left fun m _ => ?_
    by_cases hm : m.1 = name
    · simp [hm]
    · simp [hm]
  · rw [if_neg h, put_of_notMem h]
    simp [names]

/-- Names stay apart. -/
theorem nodup_names_put {ms : Members α} (h : ms.names.Nodup) (name : Text) (a : α) :
    (ms.put name a).names.Nodup := by
  rw [names_put]
  split
  · exact h
  · rename_i hnew
    rw [List.nodup_append]
    refine ⟨h, by simp, ?_⟩
    rintro x hx y hy rfl
    exact hnew (List.mem_singleton.mp hy ▸ hx)

/-- Counting one more under a name adds one to the sum. -/
theorem sum_put_succ {ms : Members Nat} (h : ms.names.Nodup) (name : Text) :
    ((ms.put name ((ms.get? name).getD 0 + 1)).map Prod.snd).sum = (ms.map Prod.snd).sum + 1 := by
  induction ms with
  | nil => rfl
  | cons m ms ih =>
    simp only [names, List.map_cons, List.nodup_cons] at h
    rw [put_cons m h.1, get?_cons]
    split
    · simp only [List.map_cons, List.sum_cons, Option.getD_some]
      omega
    · rw [List.map_cons, List.sum_cons, ih h.2, List.map_cons, List.sum_cons]
      omega

/-- Members with distinct new names are appended. -/
theorem merge_eq_append {ms others : Members α} (h : (ms ++ others).names.Nodup) :
    ms.merge others = ms ++ others := by
  induction others generalizing ms with
  | nil => rw [merge, List.foldl_nil, List.append_nil]
  | cons m others ih =>
    have hsplit : ms ++ m :: others = (ms ++ [m]) ++ others := by simp
    have hnew : m.1 ∉ ms.names := by
      intro hmem
      simp only [names, List.map_append, List.map_cons, List.nodup_append] at h
      exact h.2.2 m.1 hmem m.1 (by simp) rfl
    have hput : ms.put m.1 m.2 = ms ++ [m] := put_of_notMem hnew m.2
    rw [hsplit] at h ⊢
    have hrest := ih h
    rw [merge] at hrest ⊢
    rw [List.foldl_cons, hput, hrest]

/-- A list in which every name stands once is read as it stands. -/
theorem ofList_eq_self {entries : List (Text × α)} (h : (names entries).Nodup) :
    ofList entries = entries :=
  merge_eq_append h

/-- Members with the same names in the same order and the same entries are the same. -/
theorem eq_of_get? {ms others : Members α} (hms : ms.names.Nodup) (hnames : ms.names = others.names)
    (hget : ∀ name ∈ ms.names, ms.get? name = others.get? name) : ms = others := by
  induction ms generalizing others with
  | nil => exact (List.map_eq_nil_iff.mp hnames.symm).symm
  | cons m ms ih =>
    cases others with
    | nil => cases hnames
    | cons o others =>
      obtain ⟨hhead, htail⟩ := List.cons.inj hnames
      obtain ⟨hm, hrest⟩ := List.nodup_cons.mp hms
      have hentry := hget m.1 List.mem_cons_self
      rw [get?_cons, get?_cons, if_pos rfl, if_pos hhead, Option.some.injEq] at hentry
      refine congr (congrArg List.cons (Prod.ext hhead hentry)) (ih hrest htail fun name hname => ?_)
      have hne : name ≠ m.1 := fun h => hm (h ▸ hname)
      have hlater := hget name (List.mem_cons_of_mem _ hname)
      rwa [get?_cons, get?_cons, if_neg hne, if_neg (hhead ▸ hne)] at hlater

/-! ## New names only -/

/-- Entries of a second list for the names without one, the first entry of each name counting. -/
def addNew (ms others : Members α) : Members α := others.foldl (fun r m => r.putNew m.1 m.2) ms

theorem names_putNew (ms : Members α) (name : Text) (a : α) :
    (ms.putNew name a).names = if name ∈ ms.names then ms.names else ms.names ++ [name] := by
  simp only [putNew, has_iff]
  split
  · rfl
  · simp [names]

theorem get?_append (ms others : Members α) (name : Text) :
    get? (ms ++ others) name = (ms.get? name).or (others.get? name) := List.lookup_append

theorem get?_putNew (ms : Members α) (name : Text) (a : α) (other : Text) :
    (ms.putNew name a).get? other = (ms.get? other).or (get? [(name, a)] other) := by
  rw [putNew]
  split
  · rename_i hhas
    rw [get?_cons]
    split
    · rename_i hname
      subst hname
      rw [has, Option.isSome_iff_exists] at hhas
      obtain ⟨b, hb⟩ := hhas
      rw [hb, Option.some_or]
    · rw [get?_nil, Option.or_none]
  · exact get?_append ms [(name, a)] other

/-- Known names keep their entries; of a new one the first entry is taken. -/
theorem get?_addNew (ms others : Members α) (name : Text) :
    (ms.addNew others).get? name = (ms.get? name).or (others.get? name) := by
  induction others generalizing ms with
  | nil => rw [addNew, List.foldl_nil, get?_nil, Option.or_none]
  | cons m others ih =>
    have hstep : ms.addNew (m :: others) = (ms.putNew m.1 m.2).addNew others := rfl
    rw [hstep, ih, get?_putNew, Option.or_assoc, ← get?_append]
    rfl

/-- New names come behind the known ones, in the order in which they are first given. -/
theorem names_addNew (ms others : Members α) :
    (ms.addNew others).names =
      ms.names ++ others.names.eraseDups.filter fun name => name ∉ ms.names := by
  induction others using List.reverseRecOn with
  | nil => simp [addNew, names]
  | append_singleton others m ih =>
    have hstep : ms.addNew (others ++ [m]) = (ms.addNew others).putNew m.1 m.2 := by
      rw [addNew, List.foldl_append]
      rfl
    have hnames : names (others ++ [m]) = names others ++ [m.1] := by simp [names]
    rw [hstep, names_putNew, ih, hnames, List.eraseDups_append]
    by_cases hothers : m.1 ∈ names others
    · have hold : List.removeAll [m.1] (names others) = [] := by simp [List.removeAll, hothers]
      have hin : m.1 ∈ ms.names ++ (names others).eraseDups.filter fun name => name ∉ ms.names := by
        by_cases hms : m.1 ∈ ms.names
        · exact List.mem_append_left _ hms
        · exact List.mem_append_right _ (by simp [hothers, hms])
      rw [if_pos hin, hold, List.eraseDups_nil, List.append_nil]
    · have hnew : List.removeAll [m.1] (names others) = [m.1] := by simp [List.removeAll, hothers]
      rw [hnew, List.filter_append]
      by_cases hms : m.1 ∈ ms.names
      · rw [if_pos (List.mem_append_left _ hms)]
        simp [hms, List.eraseDups_cons]
      · rw [if_neg (by simp [hothers, hms])]
        simp [hms, List.eraseDups_cons]

theorem eraseDups_eq_self {names : List Text} (h : names.Nodup) : names.eraseDups = names := by
  induction names with
  | nil => rfl
  | cons name names ih =>
    obtain ⟨hname, hrest⟩ := List.nodup_cons.mp h
    have hfilter : names.filter (fun other => !other == name) = names := by
      refine List.filter_eq_self.mpr fun other hother => ?_
      have hne : other ≠ name := fun heq => hname (heq ▸ hother)
      simpa using hne
    rw [List.eraseDups_cons, hfilter, ih hrest]

theorem nodup_names_addNew {ms : Members α} (h : ms.names.Nodup) (others : Members α) :
    (ms.addNew others).names.Nodup := by
  induction others generalizing ms with
  | nil => exact h
  | cons m others ih =>
    have hput : (ms.putNew m.1 m.2).names.Nodup := by
      rw [names_putNew, ← names_put]
      exact nodup_names_put h m.1 m.2
    exact ih hput

theorem names_addNew_nil (others : Members α) :
    (addNew [] others).names = others.names.eraseDups := by
  rw [names_addNew]
  simp [names]

theorem get?_addNew_nil (others : Members α) (name : Text) :
    (addNew [] others).get? name = others.get? name := by
  rw [get?_addNew, get?_nil, Option.none_or]

/-- What comes of a list in which names may stand several times. -/
theorem addNew_nil_eq_iff {others expected : Members α} (h : expected.names.Nodup) :
    addNew [] others = expected ↔
      others.names.eraseDups = expected.names ∧ ∀ m ∈ expected, others.get? m.1 = some m.2 := by
  constructor
  · rintro rfl
    exact ⟨(names_addNew_nil others).symm,
      fun m hm => (get?_addNew_nil others m.1).symm.trans ((get?_eq_some_iff h).mpr hm)⟩
  · rintro ⟨hsame, hentries⟩
    rw [← names_addNew_nil] at hsame
    refine (eq_of_get? h hsame.symm fun name hname => ?_).symm
    obtain ⟨m, hm, rfl⟩ := List.mem_map.mp hname
    rw [get?_addNew_nil, hentries m hm]
    exact (get?_eq_some_iff h).mpr hm

theorem addNew_nil_eq_self {ms : Members α} (h : ms.names.Nodup) : addNew [] ms = ms :=
  (addNew_nil_eq_iff h).mpr ⟨eraseDups_eq_self h, fun _ hm => (get?_eq_some_iff h).mpr hm⟩

/-! ## Merging -/

/-- The second list decides about names of both. -/
theorem get?_merge {others : Members α} (h : others.names.Nodup) (ms : Members α) (name : Text) :
    (ms.merge others).get? name = (others.get? name).or (ms.get? name) := by
  induction others generalizing ms with
  | nil => rw [merge, List.foldl_nil, get?_nil, Option.none_or]
  | cons m others ih =>
    obtain ⟨hm, hrest⟩ := List.nodup_cons.mp h
    have hstep : ms.merge (m :: others) = (ms.put m.1 m.2).merge others := rfl
    rw [hstep, ih hrest, get?_put, get?_cons]
    split
    · rename_i hname
      have hnone : get? others name = none := by
        rw [hname, ← Option.not_isSome_iff_eq_none]
        exact fun hsome => hm ((has_iff others m.1).mp hsome)
      rw [hnone, Option.none_or, Option.some_or]
    · rfl

/-- Merged names stand in the same order as if only the new ones were added. -/
theorem names_merge (ms others : Members α) :
    (ms.merge others).names = (ms.addNew others).names := by
  have hfold : ∀ (l r : Members α), l.names = r.names →
      (l.merge others).names = (r.addNew others).names := by
    induction others with
    | nil => exact fun l r h => h
    | cons m others ih =>
      intro l r h
      exact ih _ _ (by rw [names_put, names_putNew, h])
  exact hfold ms ms rfl

theorem nodup_names_merge {ms : Members α} (h : ms.names.Nodup) (others : Members α) :
    (ms.merge others).names.Nodup := by
  induction others generalizing ms with
  | nil => exact h
  | cons m others ih => exact ih (nodup_names_put h m.1 m.2)

theorem nodup_names_ofList (entries : List (Text × α)) : (ofList entries).names.Nodup :=
  nodup_names_merge (show (names ([] : Members α)).Nodup from List.nodup_nil) entries

theorem merge_self {ms : Members α} (h : ms.names.Nodup) : ms.merge ms = ms := by
  have hnames : (ms.merge ms).names = ms.names := by
    rw [names_merge, names_addNew, eraseDups_eq_self h, List.filter_eq_nil_iff.mpr (by simp),
      List.append_nil]
  refine eq_of_get? (hnames ▸ h) hnames fun name _ => ?_
  rw [get?_merge h, Option.or_self]

/-- All entries come from one of the two lists. -/
theorem forall_mem_merge {P : α → Prop} {ms others : Members α} (hms : ∀ m ∈ ms, P m.2)
    (hothers : ∀ m ∈ others, P m.2) : ∀ m ∈ ms.merge others, P m.2 := by
  induction others generalizing ms with
  | nil => exact hms
  | cons o others ih =>
    obtain ⟨ho, hrest⟩ := List.forall_mem_cons.mp hothers
    have hput : ∀ m ∈ ms.put o.1 o.2, P m.2 := by
      intro m hm
      rw [put] at hm
      split at hm
      · obtain ⟨n, hn, rfl⟩ := List.mem_map.mp hm
        split
        · exact ho
        · exact hms n hn
      · rcases List.mem_append.mp hm with hm | hm
        · exact hms m hm
        · rw [List.mem_singleton.mp hm]
          exact ho
    exact ih hput hrest

end OperationScan.Members
