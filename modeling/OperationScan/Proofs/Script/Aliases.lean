import OperationScan.Proofs.Script.Calls
import OperationScan.Proofs.Script.Literals

/-!
# Chains of aliases

A name may stand for another name, and so on. Following a chain of names is one thing done in three
places, each with a count of its own: to find the expression at the end, its text and its value.

* `Follows`, `Leads`: one look-up, and a chain of them that ends at an expression which is no name.
* `Leads.unique`, `not_leads_of_cycle`: the end is the only one, and names that stand for each other
  have none.
* `resolve?_eq_some_iff`, `staticText_of_leads`, `staticValue_of_leads`: what is found in each of the
  three places.
* `aliases_followed_alike`: all three follow the same chains, and none of them goes on forever.
-/

namespace OperationScan.Script

variable {x : ScopeIndex} {s t t' b : Site} {n n' : Nat}

/-! ## Chains -/

/-- An expression is, apart from wrappers, a name that stands for another expression. -/
def Follows (x : ScopeIndex) (s b : Site) : Prop :=
  ∃ r, s.unwrap? = some r ∧ r.kind.isReference = true ∧ x.lookup? r = some b

/-- A chain of names, of some length, ends at an expression that is neither a name nor a wrapper. -/
inductive Leads (x : ScopeIndex) : Nat → Site → Site → Prop
  | here {s t : Site} (hs : s.unwrap? = some t) (ht : t.kind.isReference = false) : Leads x 0 s t
  | follow {n : Nat} {s b t : Site} (hs : Follows x s b) (h : Leads x n b t) : Leads x (n + 1) s t

namespace Leads

theorem not_isReference (h : Leads x n s t) : t.kind.isReference = false := by
  induction h with
  | here _ ht => exact ht
  | follow _ _ ih => exact ih

/-- A chain that is followed one look-up further ends where it has ended before. -/
theorem of_follows (h : Leads x n s t) (hs : Follows x s b) : ∃ m, n = m + 1 ∧ Leads x m b t := by
  obtain ⟨r, hr, href, hb⟩ := hs
  cases h with
  | here hs ht =>
    rw [hr] at hs
    cases hs
    rw [href] at ht
    cases ht
  | @follow m _ b' _ hs h =>
    obtain ⟨r', hr', -, hb'⟩ := hs
    rw [hr] at hr'
    cases hr'
    rw [hb] at hb'
    cases hb'
    exact ⟨m, rfl, h⟩

/-- Chains have one end, and one length. -/
theorem unique (h : Leads x n s t) (h' : Leads x n' s t') : n = n' ∧ t = t' := by
  induction h generalizing n' with
  | here hs ht =>
    cases h' with
    | here hs' _ => exact ⟨rfl, Option.some.inj (hs.symm.trans hs')⟩
    | follow hs' _ =>
      obtain ⟨r, hr, href, -⟩ := hs'
      rw [hs] at hr
      cases hr
      rw [ht] at href
      cases href
  | follow hs _ ih =>
    obtain ⟨m, rfl, hrest⟩ := h'.of_follows hs
    obtain ⟨rfl, rfl⟩ := ih hrest
    exact ⟨rfl, rfl⟩

theorem of_transGen (h : Leads x n s t) (hs : Relation.TransGen (Follows x) s b) :
    ∃ m < n, Leads x m b t := by
  induction hs with
  | single hs =>
    obtain ⟨m, rfl, h'⟩ := h.of_follows hs
    exact ⟨m, Nat.lt_succ_self m, h'⟩
  | tail _ hs ih =>
    obtain ⟨k, hk, h'⟩ := ih
    obtain ⟨m, rfl, h''⟩ := h'.of_follows hs
    exact ⟨m, Nat.lt_of_succ_lt hk, h''⟩

end Leads

/-- Names that stand for each other stand for no expression. -/
theorem not_leads_of_cycle (h : Relation.TransGen (Follows x) s s) : ¬ Leads x n s t := by
  intro hleads
  obtain ⟨m, hm, hleads'⟩ := hleads.of_transGen h
  exact Nat.ne_of_lt hm (hleads'.unique hleads).1

/-! ## The end of a chain -/

theorem resolveFrom_of_follows {r : Site} (href : r.kind.isReference = true)
    (hb : x.lookup? r = some b) (steps : Nat) :
    resolveFrom x (steps + 1) (some r) = resolveFrom x steps b.unwrap? := by
  rw [resolveFrom, if_pos href, hb, Option.bind_some]

theorem resolveFrom_of_leads (h : Leads x n s t) (steps : Nat) :
    resolveFrom x steps s.unwrap? = if n ≤ steps then some t else none := by
  induction h generalizing steps with
  | here hs ht =>
    rw [hs, if_pos (Nat.zero_le _)]
    cases steps <;> rw [resolveFrom, if_neg (by simp [ht])]
  | follow hs _ ih =>
    obtain ⟨r, hr, href, hb⟩ := hs
    rw [hr]
    cases steps with
    | zero => rw [resolveFrom, if_pos href, if_neg (Nat.not_succ_le_zero _)]
    | succ steps =>
      rw [resolveFrom_of_follows href hb, ih]
      exact if_congr Nat.succ_le_succ_iff.symm rfl rfl

theorem exists_leads_of_resolveFrom {steps : Nat} (h : resolveFrom x steps s.unwrap? = some t) :
    ∃ n ≤ steps, Leads x n s t := by
  induction steps generalizing s with
  | zero =>
    cases hs : s.unwrap? with
    | none => rw [hs, resolveFrom] at h; cases h
    | some r =>
      rw [hs, resolveFrom] at h
      split at h
      · cases h
      · rename_i href
        cases h
        exact ⟨0, Nat.le_refl 0, .here hs (by simpa using href)⟩
  | succ steps ih =>
    cases hs : s.unwrap? with
    | none => rw [hs, resolveFrom] at h; cases h
    | some r =>
      rw [hs, resolveFrom] at h
      split at h
      · rename_i href
        cases hb : x.lookup? r with
        | none => rw [hb, Option.bind_none, resolveFrom] at h; cases h
        | some b =>
          rw [hb, Option.bind_some] at h
          obtain ⟨n, hn, hleads⟩ := ih h
          exact ⟨n + 1, Nat.succ_le_succ hn, .follow ⟨r, hs, href, hb⟩ hleads⟩
      · rename_i href
        cases h
        exact ⟨0, Nat.zero_le _, .here hs (by simpa using href)⟩

theorem resolve?_eq_some_iff : resolve? x s = some t ↔ ∃ n ≤ maxDepth, Leads x n s t := by
  constructor
  · exact exists_leads_of_resolveFrom
  · rintro ⟨n, hn, h⟩
    rw [resolve?, resolveFrom_of_leads h, if_pos hn]

theorem resolve?_eq_none_iff : resolve? x s = none ↔ ∀ n t, Leads x n s t → maxDepth < n := by
  rw [Option.eq_none_iff_forall_ne_some]
  constructor
  · intro h n t hleads
    exact Nat.lt_of_not_le fun hn => h t (resolve?_eq_some_iff.mpr ⟨n, hn, hleads⟩)
  · intro h t ht
    obtain ⟨n, hn, hleads⟩ := resolve?_eq_some_iff.mp ht
    exact Nat.not_lt.mpr hn (h n t hleads)

/-! ## The text and the value at the end -/

/-- A chain of names takes as many steps as it has look-ups, and one more at its end. -/
theorem text_of_leads (h : Leads x n s t) (hstring : t.kind = .string) (steps : Nat) :
    (evaluators x steps).text s =
      .ok (if n < steps then some (stringValue t.node) else none) := by
  induction h generalizing steps with
  | here hs ht =>
    cases steps with
    | zero => rfl
    | succ steps =>
      rw [evaluators, if_pos (Nat.succ_pos _)]
      exact textWith_of_string hs hstring
  | follow hs _ ih =>
    obtain ⟨r, hr, href, hb⟩ := hs
    cases steps with
    | zero => rfl
    | succ steps =>
      rw [evaluators]
      dsimp only
      rw [textWith_of_reference hr href, hb, Evaluators.textOf, ih hstring]
      exact congrArg _ (if_congr Nat.succ_lt_succ_iff.symm rfl rfl)

theorem value_of_leads (h : Leads x n s t) (hstring : t.kind = .string) (steps : Nat) :
    (evaluators x steps).value s =
      .ok (if n < steps then some (.string (stringValue t.node)) else none) := by
  induction h generalizing steps with
  | @here s t hs ht =>
    cases steps with
    | zero => rfl
    | succ steps =>
      have htextual : t.kind.isTextual = true := by rw [hstring]; rfl
      have hself : t.unwrap? = some t := Site.unwrap?_eq_self (by rw [hstring]; rfl)
      rw [evaluators, if_pos (Nat.succ_pos _)]
      dsimp only
      rw [valueWith_of_isTextual hs htextual, textWith_of_string hself hstring]
      rfl
  | follow hs _ ih =>
    obtain ⟨r, hr, href, hb⟩ := hs
    cases steps with
    | zero => rfl
    | succ steps =>
      rw [evaluators]
      dsimp only
      rw [valueWith_of_reference hr href, hb, Evaluators.valueOf, ih hstring]
      exact congrArg _ (if_congr Nat.succ_lt_succ_iff.symm rfl rfl)

theorem staticText_of_leads (h : Leads x n s t) (hstring : t.kind = .string) :
    staticText x s = .ok (if n ≤ maxDepth then some (stringValue t.node) else none) := by
  rw [staticText, text_of_leads h hstring]
  exact congrArg _ (if_congr Nat.lt_succ_iff rfl rfl)

theorem staticValue_of_leads (h : Leads x n s t) (hstring : t.kind = .string) :
    staticValue x s =
      .ok (if n ≤ maxDepth then some (.string (stringValue t.node)) else none) := by
  rw [staticValue, value_of_leads h hstring]
  exact congrArg _ (if_congr Nat.lt_succ_iff rfl rfl)

/-- A chain of names is followed alike wherever an expression is asked for, and nowhere forever. The
expression at its end is found exactly if there are at most `maxDepth` look-ups before it, and a
string that stands there is found as text and as a value exactly then. All evaluations come to an
end, so that their results are the only ones that follow from each other as they do. -/
theorem aliases_followed_alike (x : ScopeIndex) :
    (∀ s, (∀ t, resolve? x s = some t ↔ ∃ n ≤ maxDepth, Leads x n s t) ∧
      (resolve? x s = none ↔ ∀ n t, Leads x n s t → maxDepth < n) ∧
      (Relation.TransGen (Follows x) s s → resolve? x s = none) ∧
      ∀ t, resolve? x s = some t → t.kind.isReference = false) ∧
    (∀ s n t, Leads x n s t → t.kind = .string →
      (staticText x s = .ok (some (stringValue t.node)) ↔ resolve? x s = some t) ∧
      (staticValue x s = .ok (some (.string (stringValue t.node))) ↔ resolve? x s = some t) ∧
      (resolve? x s ≠ some t →
        resolve? x s = none ∧ staticText x s = .ok none ∧ staticValue x s = .ok none)) ∧
    (WellFounded fun c' c => Asks x c c') ∧
    (∀ f : (c : Call) → c.Answer, (∀ c, f c = respond x f c) ↔ f = answer x) ∧
    ∀ s, resolve? x s = s.unwrap?.bind (fun t => answer x (.resolve 0 t)) ∧
      staticText x s = answer x (.text 0 s) ∧ staticValue x s = answer x (.value 0 s) := by
  refine ⟨fun s => ⟨fun t => resolve?_eq_some_iff, resolve?_eq_none_iff, fun hcycle => ?_,
    fun t ht => ?_⟩, fun s n t h hstring => ?_, wellFounded_asks x, eq_answer_iff x,
    fun s => ⟨?_, rfl, rfl⟩⟩
  · exact resolve?_eq_none_iff.mpr fun n t h => absurd h (not_leads_of_cycle hcycle)
  · obtain ⟨n, -, h⟩ := resolve?_eq_some_iff.mp ht
    exact h.not_isReference
  · have hresolve : resolve? x s = if n ≤ maxDepth then some t else none := resolveFrom_of_leads h _
    rw [staticText_of_leads h hstring, staticValue_of_leads h hstring, hresolve]
    by_cases hn : n ≤ maxDepth
    · simp [hn]
    · simp [hn]
  · rw [resolve?]
    cases s.unwrap? with
    | none => rw [resolveFrom, Option.bind_none]
    | some t => rfl

/-- A script with ten names, each of which but the first stands for the one before. -/
def chainRoot : Node :=
  (parse? .javascript "let a='A',b=a,c=b,d=c,e=d,f=e,g=f,h=g,i=h,j=i".toList).getD default

/-- What the last name stands for: the name before it. -/
def lastAlias? : Option Site :=
  ((Site.walk chainRoot).filter fun s => s.kind == .identifier && s.node.role == .value).getLast?

/-- Nine look-ups are one too many. -/
theorem aliases_followed_alike_chain : ∃ s b t, lastAlias? = some s ∧
    Follows (.build chainRoot) s b ∧ Leads (.build chainRoot) maxDepth b t ∧
    resolve? (.build chainRoot) b = some t ∧
    staticText (.build chainRoot) b = .ok (some ['A']) ∧
    staticValue (.build chainRoot) b = .ok (some (.string ['A'])) ∧
    resolve? (.build chainRoot) s = none ∧ staticText (.build chainRoot) s = .ok none ∧
    staticValue (.build chainRoot) s = .ok none := by
  obtain ⟨hkind, hend, hfar⟩ : lastAlias?.map Site.kind = some .identifier ∧
      ((lastAlias?.bind (ScopeIndex.build chainRoot).lookup?).bind
        (resolve? (.build chainRoot))).map (fun t => (t.kind, stringValue t.node)) =
          some (.string, ['A']) ∧
      (lastAlias?.bind (resolve? (.build chainRoot))).isNone = true := by
    decide +kernel
  obtain ⟨t, ht, hvalue⟩ := Option.map_eq_some_iff.mp hend
  obtain ⟨b, hb, ht⟩ := Option.bind_eq_some_iff.mp ht
  obtain ⟨s, hs, hb⟩ := Option.bind_eq_some_iff.mp hb
  rw [hs] at hkind hfar
  replace hkind : s.kind = .identifier := Option.some.inj hkind
  replace hfar : resolve? (.build chainRoot) s = none := Option.isNone_iff_eq_none.mp hfar
  obtain ⟨hstring, htext⟩ := Prod.mk.inj hvalue
  have hfollows : Follows (.build chainRoot) s b :=
    ⟨s, Site.unwrap?_eq_self (by rw [hkind]; rfl), by rw [hkind]; rfl, hb⟩
  obtain ⟨hresolve, hliteral, -⟩ := aliases_followed_alike (.build chainRoot)
  obtain ⟨n, hn, hleads⟩ := ((hresolve b).1 t).mp ht
  have hleads' : Leads (.build chainRoot) (n + 1) s t := .follow hfollows hleads
  obtain rfl : n = maxDepth :=
    Nat.le_antisymm hn (Nat.le_of_lt_succ ((hresolve s).2.1.mp hfar _ _ hleads'))
  obtain ⟨hfoundText, hfoundValue, -⟩ := hliteral _ _ _ hleads hstring
  obtain ⟨-, -, hlost⟩ := hliteral _ _ _ hleads' hstring
  have hnone := hlost (by rw [hfar]; exact nofun)
  rw [htext] at hfoundText hfoundValue
  exact ⟨s, b, t, hs, hfollows, hleads, ht, hfoundText.mpr ht, hfoundValue.mpr ht, hfar, hnone.2⟩

end OperationScan.Script
