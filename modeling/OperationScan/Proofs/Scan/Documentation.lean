import Mathlib.Data.List.Chain
import OperationScan.Proofs.Collector.Record
import OperationScan.Proofs.Pattern.Found
import OperationScan.Proofs.Pattern.Screen
import OperationScan.Proofs.Text.Pieces
import OperationScan.Proofs.Text.Respaced
import OperationScan.Scan.Comments

/-!
# Documentation comments are read back

A documentation comment has its lines behind gutters. Its delimiters and its gutters are taken off
again whatever its lines begin with, and a text made of such comments is scanned as if each of
them were given by its lines alone.

* `DocComment`, `documented`: documentation comments, one after the other, with gaps between them.
* `DocComment.clean_text`: the text of such a comment is its lines.
* `findAll_blockStep`: the block comments are the documentation comments.
* `eq_of_mem_findAll_lineStep`: where two comments touch, a line comment without text is seen.
* `scanComments_documented`: the scan records the lines of the comments, in order.
-/

namespace OperationScan

open Comment Text

/-- The lines of a documentation comment, and what follows it up to the next one. -/
structure DocComment where
  lines : List Text
  gap : Text

namespace DocComment

/-- A line behind its gutter. -/
def gutterLine (line : Text) : Text := ' ' :: '*' :: ' ' :: (line ++ ['\n'])

/-- The comment with its delimiters and gutters. -/
def text (d : DocComment) : Text :=
  "/**\n".toList ++ (d.lines.flatMap gutterLine ++ " */".toList)

/-- The lines without their gutters, and without white space at their ends. -/
def content (d : DocComment) : Text := trim (join ['\n'] d.lines)

/-- The comment and what follows it. -/
def stretch (d : DocComment) : Stretch := ⟨d.text, d.gap⟩

/-- The lines are lines, no comment ends or begins in one of them, and what follows has no
slash. -/
structure Valid (d : DocComment) : Prop where
  feed : ∀ line ∈ d.lines, '\n' ∉ line
  closing : ∀ line ∈ d.lines, ¬ ['*', '/'] <:+: line
  slashes : ∀ line ∈ d.lines, ¬ ['/', '/'] <:+: line
  gap : '/' ∉ d.gap

/-- The standard pattern matches in the lines. -/
def HoldsOperation (d : DocComment) : Prop := Pattern.standard.matchesIn d.content ≠ []

instance : DecidablePred HoldsOperation := fun _ => inferInstanceAs (Decidable (_ ≠ []))

end DocComment

/-- Documentation comments, one after the other, with text in front. -/
def documented (first : Text) (ds : List DocComment) : Text :=
  interleaved first (ds.map DocComment.stretch)

variable {d : DocComment} {ds : List DocComment} {first line t u : Text}

/-! ## Delimiters and gutters -/

namespace Comment

theorem mapLines_append (f : Text → Text) (h : '\n' ∉ line) (t : Text) :
    mapLines f (line ++ '\n' :: t) = f line ++ '\n' :: mapLines f t := by
  have hpieces : (splitOn '\n' t).map f ≠ [] := by
    simpa using splitOn_ne_nil '\n' t
  rw [mapLines, splitOn_append, splitOn_of_notMem h, List.singleton_append, List.map_cons,
    join_cons _ _ hpieces]
  rfl

/-- The gutter in front of a line is dropped, and nothing of the line. -/
theorem dropGutter_gutter (line : Text) : dropGutter (' ' :: '*' :: ' ' :: line) = line := rfl

theorem dropClosing_append (t : Text) : dropClosing (t ++ " */".toList) = t ++ [' '] := by
  have hreverse : (t ++ " */".toList).reverse = '/' :: '*' :: ' ' :: t.reverse := by simp
  rw [dropClosing, hreverse]
  change (' ' :: t.reverse).reverse = _
  simp

end Comment

namespace DocComment

/-- The gutters of all lines are dropped. -/
theorem mapLines_dropGutter {lines : List Text} (h : ∀ line ∈ lines, '\n' ∉ line) (t : Text) :
    mapLines dropGutter (lines.flatMap gutterLine ++ t) =
      lines.flatMap (· ++ ['\n']) ++ mapLines dropGutter t := by
  induction lines with
  | nil => rfl
  | cons line lines ih =>
    obtain ⟨hline, hlines⟩ := List.forall_mem_cons.mp h
    have hgutter : '\n' ∉ ' ' :: '*' :: ' ' :: line := by simpa using hline
    have hsplit : (line :: lines).flatMap gutterLine ++ t =
        (' ' :: '*' :: ' ' :: line) ++ '\n' :: (lines.flatMap gutterLine ++ t) := by
      simp [gutterLine]
    rw [hsplit, mapLines_append dropGutter hgutter, ih hlines, dropGutter_gutter]
    simp

/-- Lines that are all ended are joined lines with a line feed behind them. -/
theorem exists_flatMap_eq_join (lines : List Text) :
    ∃ blanks, IsBlank blanks ∧ lines.flatMap (· ++ ['\n']) = join ['\n'] lines ++ blanks := by
  induction lines with
  | nil => exact ⟨[], isBlank_nil, rfl⟩
  | cons line lines ih =>
    obtain ⟨blanks, hblanks, heq⟩ := ih
    by_cases hlines : lines = []
    · subst hlines
      exact ⟨['\n'], by decide, by simp [join]⟩
    · refine ⟨blanks, hblanks, ?_⟩
      rw [List.flatMap_cons, heq, join_cons _ _ hlines]
      simp

/-- The text of a documentation comment is its lines. -/
theorem clean_text (h : ∀ line ∈ d.lines, '\n' ∉ line) : clean d.text = d.content := by
  obtain ⟨blanks, hblanks, heq⟩ := exists_flatMap_eq_join d.lines
  have hopened : clean d.text = trim (mapLines dropGutter
      (dropClosing (['\n'] ++ (d.lines.flatMap gutterLine ++ " */".toList)))) := rfl
  have hfeed : mapLines dropGutter ('\n' :: (d.lines.flatMap gutterLine ++ [' '])) =
      '\n' :: mapLines dropGutter (d.lines.flatMap gutterLine ++ [' ']) :=
    mapLines_append dropGutter List.not_mem_nil _
  have hlast : mapLines dropGutter [' '] = [' '] := by rfl
  rw [hopened, ← List.append_assoc, dropClosing_append, List.append_assoc, List.singleton_append,
    hfeed, mapLines_dropGutter h, hlast, heq, ← List.singleton_append,
    trim_blank_append (by decide), trim_append_blank _ (by decide), trim_append_blank _ hblanks,
    content]

end DocComment

/-! ## Pairs of characters -/

/-- Nowhere in a text does one character follow right behind another. -/
def Lacks (a b : Char) (t : Text) : Prop := t.IsChain fun c d => ¬ (c = a ∧ d = b)

section Lacks

variable {a b c : Char}

theorem lacks_iff_not_isInfix : Lacks a b t ↔ ¬ [a, b] <:+: t := by
  rw [Lacks, List.isChain_iff_forall_rel_of_append_cons_cons]
  constructor
  · rintro h ⟨u, v, heq⟩
    have hpair : t = u ++ a :: b :: v := by rw [← heq]; simp
    exact h hpair ⟨rfl, rfl⟩
  · rintro h c d u v heq ⟨rfl, rfl⟩
    exact h ⟨u, v, by rw [heq]; simp⟩

theorem lacks_cons_of_ne (h : c ≠ a) : Lacks a b (c :: t) ↔ Lacks a b t := by
  cases t with
  | nil => simp [Lacks]
  | cons d t => simp [Lacks, h]

/-- Two texts are put together where no pair can arise. -/
theorem lacks_append (ht : Lacks a b t) (hu : Lacks a b u) (hhead : u.head? ≠ some b) :
    Lacks a b (t ++ u) := by
  refine List.isChain_append.mpr ⟨ht, hu, ?_⟩
  rintro x - y hy ⟨-, rfl⟩
  exact hhead hy

theorem lacks_of_notMem (h : a ∉ t) : Lacks a b t := by
  rw [lacks_iff_not_isInfix]
  intro hwithin
  exact h (hwithin.subset (by simp))

end Lacks

namespace DocComment

/-- A pair that ends with a slash stands in no line, so it does not stand in the lines with their
gutters. -/
theorem lacks_gutterLines {a : Char} {lines : List Text} (ha : a ≠ ' ')
    (h : ∀ line ∈ lines, Lacks a '/' line) (ht : Lacks a '/' t) (hhead : t.head? ≠ some '/') :
    Lacks a '/' (lines.flatMap gutterLine ++ t) ∧
      (lines.flatMap gutterLine ++ t).head? ≠ some '/' := by
  induction lines with
  | nil => exact ⟨ht, hhead⟩
  | cons line lines ih =>
    obtain ⟨hline, hlines⟩ := List.forall_mem_cons.mp h
    obtain ⟨hrest, hrestHead⟩ := ih hlines
    have hsplit : (line :: lines).flatMap gutterLine ++ t =
        ' ' :: '*' :: ' ' :: (line ++ ('\n' :: (lines.flatMap gutterLine ++ t))) := by
      simp [gutterLine]
    have hfeed : Lacks a '/' ('\n' :: (lines.flatMap gutterLine ++ t)) :=
      lacks_append (t := ['\n']) (List.isChain_singleton _) hrest hrestHead
    have hbody : Lacks a '/' (line ++ ('\n' :: (lines.flatMap gutterLine ++ t))) :=
      lacks_append hline hfeed (by simp)
    have hgutter : Lacks a '/' [' ', '*'] := by simp [Lacks]
    rw [hsplit]
    refine ⟨lacks_append (t := [' ', '*']) hgutter ?_ (by simp), by simp⟩
    exact (lacks_cons_of_ne ha.symm).mpr hbody

end DocComment

/-! ## Block comments -/

/-- A comment goes on up to the first place where it may end. -/
theorem Comment.closingFrom?_append (h : Lacks '*' '/' t) (count : Nat) (rest : Text) :
    closingFrom? count (t ++ '*' :: '/' :: rest) = some (count + t.length + 2) := by
  induction t generalizing count with
  | nil => rfl
  | cons c t ih =>
    have hopen : ∀ more, c = '*' → t ++ '*' :: '/' :: rest = '/' :: more → False := by
      rintro more rfl heq
      cases t with
      | nil => cases heq
      | cons d t =>
        cases heq
        exact (List.isChain_cons_cons.mp h).1 ⟨rfl, rfl⟩
    rw [List.cons_append, closingFrom?.eq_2 _ _ _ hopen, ih h.tail, List.length_cons]
    congr 1
    omega

theorem Comment.blockStep_of_closing {before : Option Char} {index n : Nat}
    (h : closingFrom? 2 t = some n) :
    blockStep before ⟨index, '/' :: '*' :: t⟩ = .hit (('/' :: '*' :: t).take n) n := by
  simp only [blockStep, h]

theorem Comment.missesIn_blockStep (h : '/' ∉ t) : MissesIn blockStep t := by
  intro c hc before index rest
  have hne : c ≠ '/' := fun heq => h (heq ▸ hc)
  unfold blockStep
  split
  · rename_i heq
    cases heq
    exact absurd rfl hne
  · rfl

namespace DocComment

/-- Whatever stands before the slash that ends a comment does not end it. -/
theorem Valid.lacks_closing (hd : d.Valid) :
    Lacks '*' '/' ("*\n".toList ++ (d.lines.flatMap gutterLine ++ [' '])) := by
  have hlines : ∀ line ∈ d.lines, Lacks '*' '/' line :=
    fun line hline => lacks_iff_not_isInfix.mpr (hd.closing line hline)
  have hlast : Lacks '*' '/' [' '] := List.isChain_singleton _
  obtain ⟨hlacks, hhead⟩ := lacks_gutterLines (by decide) hlines hlast (by decide)
  exact lacks_append (by simp [Lacks]) hlacks hhead

/-- A documentation comment is a block comment, whatever stands around it. -/
theorem Valid.isFound (hd : d.Valid) : d.stretch.IsFound blockStep fun _ raw => raw where
  ne_nil := List.cons_ne_nil _ _
  hit := by
    intro before index rest
    have hclosing := closingFrom?_append hd.lacks_closing 2 rest
    generalize hinner : "*\n".toList ++ (d.lines.flatMap gutterLine ++ [' ']) = inner at hclosing
    have htext : d.text = '/' :: '*' :: (inner ++ ['*', '/']) := by
      rw [← hinner]
      simp [text]
    have hlength : 2 + inner.length + 2 = d.text.length := by
      rw [htext]
      simp only [List.length_cons, List.length_append, List.length_nil]
      omega
    have hrest : d.text ++ rest = '/' :: '*' :: (inner ++ '*' :: '/' :: rest) := by
      rw [htext]
      simp
    rw [hlength] at hclosing
    change blockStep before ⟨index, d.text ++ rest⟩ = .hit d.text d.text.length
    rw [hrest, blockStep_of_closing hclosing, ← hrest, List.take_left]
  gap := missesIn_blockStep hd.gap

end DocComment

/-- The block comments are the documentation comments. -/
theorem findAll_blockStep (hfirst : '/' ∉ first) (hds : ∀ d ∈ ds, d.Valid) :
    findAll blockStep (documented first ds) = ds.map DocComment.text := by
  rw [documented, findAll_interleaved (missesIn_blockStep hfirst)
    (List.forall_mem_map.mpr fun d hd => (hds d hd).isFound), foundOf_text, List.map_map]
  rfl

/-! ## Line comments -/

/-- Two slashes follow one another only where a comment is opened right behind another one. -/
def SlashesOpen (t : Text) : Prop :=
  ∀ u v, t = u ++ '/' :: '/' :: v → "**\n".toList <+: v

theorem SlashesOpen.append (ht : Lacks '/' '/' t) (hu : SlashesOpen u)
    (hhead : u.head? = some '/' → "/**\n".toList <+: u) : SlashesOpen (t ++ u) := by
  intro a v heq
  rcases List.append_eq_append_iff.mp heq with ⟨b, rfl, hb⟩ | ⟨b, rfl, hb⟩
  · exact hu b v hb
  · match b, hb with
    | [], hb => exact hu [] v hb.symm
    | [c], hb =>
      obtain ⟨rfl, rfl⟩ := List.cons.inj hb
      obtain ⟨w, hw⟩ := hhead rfl
      exact ⟨w, (List.cons.inj hw).2⟩
    | c :: c' :: b, hb =>
      obtain ⟨rfl, hmore⟩ := List.cons.inj hb
      obtain ⟨rfl, -⟩ := List.cons.inj hmore
      exact absurd ⟨a, b, by simp⟩ (lacks_iff_not_isInfix.mp ht)

theorem isPrefix_of_head?_documented (hfirst : '/' ∉ first)
    (h : (documented first ds).head? = some '/') :
    "/**\n".toList <+: documented first ds := by
  cases first with
  | cons c first =>
    have hc : c = '/' := by cases ds <;> simpa [documented, interleaved] using h
    exact absurd (List.mem_cons.mpr (.inl hc.symm)) hfirst
  | nil =>
    cases ds with
    | nil => cases h
    | cons d ds => exact ⟨_, (List.append_assoc ..).symm⟩

theorem DocComment.Valid.lacks_slashes (hd : d.Valid) : Lacks '/' '/' d.text := by
  have hlines : ∀ line ∈ d.lines, Lacks '/' '/' line :=
    fun line hline => lacks_iff_not_isInfix.mpr (hd.slashes line hline)
  have hlast : Lacks '/' '/' " */".toList := by simp [Lacks]
  obtain ⟨hlacks, hhead⟩ := lacks_gutterLines (by decide) hlines hlast (by decide)
  exact lacks_append (by simp [Lacks]) hlacks hhead

theorem slashesOpen_documented (hfirst : '/' ∉ first) (hds : ∀ d ∈ ds, d.Valid) :
    SlashesOpen (documented first ds) := by
  induction ds generalizing first with
  | nil =>
    rintro u v rfl
    simp at hfirst
  | cons d ds ih =>
    obtain ⟨hd, hrest⟩ := List.forall_mem_cons.mp hds
    have htail : SlashesOpen (d.text ++ documented d.gap ds) :=
      .append hd.lacks_slashes (ih hd.gap hrest) (isPrefix_of_head?_documented hd.gap)
    exact .append (lacks_of_notMem hfirst) htail fun _ => ⟨_, (List.append_assoc ..).symm⟩

/-- A line comment is seen only where two comments touch, and it holds no text. -/
theorem eq_of_mem_findAll_lineStep (hfirst : '/' ∉ first) (hds : ∀ d ∈ ds, d.Valid)
    {comment : Text} (h : comment ∈ findAll lineStep (documented first ds)) :
    comment = "//**".toList := by
  obtain ⟨u, v, n, heq, hhit⟩ := exists_of_mem_findAll h
  unfold lineStep at hhit
  split at hhit
  · rename_i rest hv
    obtain ⟨w, rfl⟩ := slashesOpen_documented hfirst hds u rest (by rw [heq]; exact congrArg _ hv)
    cases hhit
    dsimp only at hv
    subst hv
    rfl
  · cases hhit

/-! ## The scan -/

/-- A comment whose lines are known is recorded by its lines, and it counts if an operation is in
them. -/
theorem scanComment_text (h : ∀ line ∈ d.lines, '\n' ∉ line) (n : Nat) (c : Collector) :
    scanComment (n, c) d.text = (if d.HoldsOperation then n + 1 else n,
      (c.addMatches d.content Comment.context [] [.standard]).2) := by
  have hmatches : Sighting.ofMatches d.content Comment.context [] [.standard] =
      (Pattern.standard.matchesIn d.content).map fun m => ⟨m.text, Comment.context, []⟩ := by
    simp [Sighting.ofMatches]
  rw [scanComment, DocComment.clean_text h]
  dsimp only
  rw [Collector.addMatches_eq, hmatches]
  by_cases hholds : d.HoldsOperation
  · have hscreen : passesScreen d.content = true := by
      by_contra hscreen
      exact hholds (matchesIn_eq_nil List.mem_cons_self (by simpa using hscreen))
    rw [if_pos hscreen, if_pos hholds]
    have hcount : Pattern.standard.matchesIn d.content ≠ [] := hholds
    simp [hcount]
  · have hnone : Pattern.standard.matchesIn d.content = [] := not_not.mp hholds
    rw [if_neg hholds, hnone]
    split
    · rfl
    · rfl

theorem foldl_scanComment_text (hds : ∀ d ∈ ds, d.Valid) (n : Nat) (c : Collector) :
    (ds.map DocComment.text).foldl scanComment (n, c) =
      (n + ds.countP (fun d => decide d.HoldsOperation),
        ds.foldl (fun c d => (c.addMatches d.content Comment.context [] [.standard]).2) c) := by
  induction ds generalizing n c with
  | nil => rfl
  | cons d ds ih =>
    obtain ⟨hd, hrest⟩ := List.forall_mem_cons.mp hds
    rw [List.map_cons, List.foldl_cons, scanComment_text hd.feed, ih hrest, List.foldl_cons,
      List.countP_cons]
    by_cases hholds : d.HoldsOperation
    · simp only [hholds, if_true, decide_true]
      congr 1
      omega
    · simp only [hholds, if_false, decide_false, Bool.false_eq_true, Nat.add_zero]

/-- A line comment without text leaves everything as it is. -/
theorem foldl_scanComment_stars {comments : List Text}
    (h : ∀ comment ∈ comments, comment = "//**".toList) (state : Nat × Collector) :
    comments.foldl scanComment state = state := by
  induction comments with
  | nil => rfl
  | cons comment comments ih =>
    obtain ⟨rfl, hrest⟩ := List.forall_mem_cons.mp h
    have hscreen : passesScreen (clean "//**".toList) = false := by decide
    have hstays : scanComment state "//**".toList = state := by
      simp only [scanComment, hscreen, Bool.false_eq_true, if_false]
    rw [List.foldl_cons, hstays, ih hrest]

/-- Documentation comments are read back: the text of each is its lines without white space at
their ends, the scan records the matches in these texts in order, and it counts the comments in
which there are some. -/
theorem scanComments_documented (hfirst : '/' ∉ first) (hds : ∀ d ∈ ds, d.Valid) (c : Collector) :
    (∀ d ∈ ds, clean d.text = d.content) ∧
      scanComments (documented first ds) c =
        (ds.countP fun d => decide d.HoldsOperation,
          ds.foldl (fun c d => (c.addMatches d.content Comment.context [] [.standard]).2) c) := by
  refine ⟨fun d hd => DocComment.clean_text (hds d hd).feed, ?_⟩
  rw [scanComments, Comment.all, List.foldl_append, findAll_blockStep hfirst hds,
    foldl_scanComment_text hds,
    foldl_scanComment_stars fun _ => eq_of_mem_findAll_lineStep hfirst hds, Nat.zero_add]

/-- Lines that begin with stars and blanks, an empty line, and one in which a comment seems to
begin; the first two comments touch. -/
def starredComments : List DocComment := [
  ⟨["  ** as in", "", "* query A \x7b", "\t/* a", "\x7d"].map (·.toList), []⟩,
  ⟨["nothing of note"].map (·.toList), "\n* ".toList⟩,
  ⟨["", "mutation B \x7b b \x7d "].map (·.toList), "\ncode".toList⟩]

theorem valid_starredComments : ∀ d ∈ starredComments, d.Valid := by
  have hlines : ∀ d ∈ starredComments, (∀ line ∈ d.lines, '\n' ∉ line) ∧
      (∀ line ∈ d.lines, ¬ ['*', '/'] <:+: line) ∧ (∀ line ∈ d.lines, ¬ ['/', '/'] <:+: line) ∧
        '/' ∉ d.gap := by decide +kernel
  intro d hd
  obtain ⟨hfeed, hclosing, hslashes, hgap⟩ := hlines d hd
  exact ⟨hfeed, hclosing, hslashes, hgap⟩

theorem scanComments_documented_starred :
    '/' ∉ "code ".toList ∧ (∀ d ∈ starredComments, d.Valid) ∧
      (starredComments.map fun d => clean d.text) =
        ["** as in\n\n* query A \x7b\n\t/* a\n\x7d", "nothing of note",
          "mutation B \x7b b \x7d"].map (·.toList) ∧
      (scanComments (documented "code ".toList starredComments) (.empty [] [])).1 = 2 := by
  have hfirst : '/' ∉ "code ".toList := by decide
  obtain ⟨hclean, hscan⟩ :=
    scanComments_documented hfirst valid_starredComments (.empty [] [])
  refine ⟨hfirst, valid_starredComments, ?_, ?_⟩
  · rw [List.map_congr_left hclean]
    decide +kernel
  · rw [hscan]
    decide +kernel

end OperationScan
