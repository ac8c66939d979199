import Hypertext.CommandLine.Paragraphs
import Mathlib.Data.List.DropRight

/-! # Paragraphs

A text is lines, and its paragraphs are the runs of lines between blank ones. They are gathered line by
line; what is at hand is the run that the last lines belong to. Each paragraph is a line without blanks
at its ends, so behind a blank line each of them is a run of its own, and the paragraphs of a text can
be read from themselves. -/

namespace Hypertext.Unicode

variable {cs : List Char}

/-! ## Trimming -/

theorem trim_infix (cs : List Char) : trim cs <:+: cs :=
  (List.rdropWhile_prefix isBlank (trimStart cs)).isInfix.trans
    (List.dropWhile_suffix isBlank).isInfix

theorem not_blank_of_head?_trim {c : Char} (h : (trim cs).head? = some c) : isBlank c = false := by
  have front : (trimStart cs).head? = some c := by
    obtain ⟨rest, split⟩ := List.rdropWhile_prefix isBlank (trimStart cs)
    have shown : trim cs ++ rest = trimStart cs := split
    rw [← shown, List.head?_append, h, Option.some_or]
  have first := List.head?_dropWhile_not isBlank cs
  rw [show (cs.dropWhile isBlank).head? = some c from front] at first
  exact first

theorem not_blank_of_getLast?_trim {c : Char} (h : (trim cs).getLast? = some c) :
    isBlank c = false := by
  rw [trim, trimEnd, List.getLast?_reverse] at h
  have first := List.head?_dropWhile_not isBlank (trimStart cs).reverse
  rw [h] at first
  exact first

theorem trim_eq_self (hs : ∀ c, cs.head? = some c → isBlank c = false)
    (he : ∀ c, cs.getLast? = some c → isBlank c = false) : trim cs = cs := by
  have kept {ds : List Char} (h : ∀ c, ds.head? = some c → isBlank c = false) :
      ds.dropWhile isBlank = ds := by
    cases ds with
    | nil => rfl
    | cons d ds => exact List.dropWhile_cons_of_neg (by simp [h d rfl])
  have last : ∀ c, cs.reverse.head? = some c → isBlank c = false := by
    intro c h
    exact he c (by rwa [List.head?_reverse] at h)
  rw [trim, trimStart, kept hs, trimEnd, kept last, List.reverse_reverse]

/-- A blank at the end makes no difference. -/
theorem trim_concat_blank {c : Char} (hc : isBlank c = true) (cs : List Char) :
    trim (cs ++ [c]) = trim cs := by
  have alone : [c].dropWhile isBlank = [] := List.dropWhile_cons_of_pos hc
  cases h : cs.dropWhile isBlank with
  | nil =>
    rw [trim, trim, trimStart, trimStart, List.dropWhile_append, h, alone]
    rfl
  | cons d ds =>
    have start : (cs ++ [c]).dropWhile isBlank = (d :: ds) ++ [c] := by
      rw [List.dropWhile_append, h]
      rfl
    rw [trim, trim, trimStart, trimStart, start, h, trimEnd, trimEnd, List.reverse_append,
      List.reverse_singleton, List.singleton_append, List.dropWhile_cons_of_pos hc]

end Hypertext.Unicode

namespace Hypertext.CommandLine

open Unicode (isBlank trim)

variable {cs ds l : List Char} {lines r : List (List Char)} {rs : List (List (List Char))}

/-! ## Lines -/

/-- The piece without the line feed that ends it. -/
def lineOf (piece : List Char) : List Char :=
  if piece.getLast? = some '\n' then piece.dropLast else piece

theorem lineOf_cons {c : Char} (hc : c ≠ '\n') (piece : List Char) :
    lineOf (c :: piece) = c :: lineOf piece := by
  cases piece with
  | nil => simp [lineOf, hc]
  | cons d ds =>
    unfold lineOf
    rw [List.getLast?_cons_cons, List.dropLast_cons_cons]
    split <;> rfl

/-- A carriage return that is left at the end of a line is a blank. -/
theorem trim_withoutFeed (piece : List Char) : trim (withoutFeed piece) = trim (lineOf piece) := by
  unfold withoutFeed lineOf
  split
  · dsimp only
    split
    · rename_i last
      obtain ⟨line, split⟩ := List.getLast?_eq_some_iff.mp last
      rw [split, List.dropLast_concat, Unicode.trim_concat_blank (by decide +kernel)]
    · rfl
  · rfl

theorem feedPieces_eq_nil (h : feedPieces cs = []) : cs = [] := by
  cases cs with
  | nil => rfl
  | cons c cs =>
    unfold feedPieces at h
    split at h
    · cases h
    · split at h <;> cases h

/-- The pieces of a text are its lines, but for an empty last one, which is no piece. -/
theorem splitOn_eq_feedPieces (cs : List Char) :
    ∃ last, (last = [] ∨ last = [[]]) ∧
      cs.splitOn '\n' = (feedPieces cs).map lineOf ++ last := by
  induction cs with
  | nil => exact ⟨[[]], .inr rfl, rfl⟩
  | cons c cs ih =>
    obtain ⟨last, hlast, split⟩ := ih
    rw [List.splitOn_cons_eq_if_modifyHead]
    by_cases feed : c = '\n'
    · subst feed
      refine ⟨last, hlast, ?_⟩
      rw [if_pos BEq.rfl, split]
      rfl
    · rw [if_neg (by simpa using feed), split, feedPieces, if_neg feed]
      cases h : feedPieces cs with
      | nil =>
        -- The last line was empty, and it is the character alone now.
        rw [h, feedPieces_eq_nil h] at split
        obtain rfl : last = [[]] := split.symm
        exact ⟨[], .inl rfl, by simp [lineOf, feed]⟩
      | cons piece pieces => exact ⟨last, hlast, by simp [lineOf_cons feed]⟩

theorem not_mem_of_mem_splitOn (h : l ∈ cs.splitOn '\n') : '\n' ∉ l := by
  induction cs generalizing l with
  | nil =>
    rw [List.mem_singleton.mp h]
    exact List.not_mem_nil
  | cons c cs ih =>
    rw [List.splitOn_cons_eq_if_modifyHead] at h
    split at h
    · rcases List.mem_cons.mp h with rfl | h
      · exact List.not_mem_nil
      · exact ih h
    · rename_i other
      have other : c ≠ '\n' := by simpa using other
      cases split : cs.splitOn '\n' with
      | nil => exact absurd split (List.splitOn_ne_nil _ _)
      | cons first rest =>
        rw [split] at h ih
        rcases List.mem_cons.mp h with rfl | h
        · simpa [Ne.symm other] using ih List.mem_cons_self
        · exact ih (List.mem_cons_of_mem _ h)

/-- A line that has no blanks at its ends and is not blank. -/
structure Solid (cs : List Char) : Prop where
  ne_nil : cs ≠ []
  unbroken : '\n' ∉ cs
  starts : ∀ c, cs.head? = some c → isBlank c = false
  ends : ∀ c, cs.getLast? = some c → isBlank c = false

namespace Solid

theorem trim_eq (h : Solid cs) : trim cs = cs :=
  Unicode.trim_eq_self h.starts h.ends

theorem of_trim (unbroken : '\n' ∉ cs) (h : trim cs ≠ []) : Solid (trim cs) where
  ne_nil := h
  unbroken broken := unbroken ((Unicode.trim_infix cs).subset broken)
  starts _ := Unicode.not_blank_of_head?_trim
  ends _ := Unicode.not_blank_of_getLast?_trim

/-- Two lines are joined by a space. -/
theorem append (hc : Solid cs) (hd : Solid ds) : Solid (cs ++ [' '] ++ ds) where
  ne_nil h := hd.ne_nil (List.append_eq_nil_iff.mp h).2
  unbroken := by simp [hc.unbroken, hd.unbroken]
  starts c h := by
    have here := List.head?_eq_some_head hc.ne_nil
    rw [List.append_assoc, List.head?_append, here, Option.some_or] at h
    exact hc.starts c (here.trans h)
  ends c h := by
    have here := List.getLast?_eq_some_getLast hd.ne_nil
    rw [List.getLast?_append, here, Option.some_or] at h
    exact hd.ends c (here.trans h)

theorem join (hr : r ≠ []) (h : ∀ l ∈ r, Solid l) : Solid ([' '].intercalate r) := by
  induction r with
  | nil => exact absurd rfl hr
  | cons l r ih =>
    obtain ⟨first, others⟩ := List.forall_mem_cons.mp h
    cases r with
    | nil => rwa [List.intercalate_singleton]
    | cons m r =>
      rw [List.intercalate_cons_cons]
      exact first.append (ih (List.cons_ne_nil m r) others)

end Solid

/-! ## Runs -/

/-- The longest runs of lines that are not empty, in order: each begins where the lines do or behind
an empty one, and ends before an empty one or where the lines do. -/
inductive MaximalRuns : List (List Char) → List (List (List Char)) → Prop where
  | done : MaximalRuns [] []
  | blank {lines : List (List Char)} {rs : List (List (List Char))} (rest : MaximalRuns lines rs) :
      MaximalRuns ([] :: lines) rs
  | run {r lines : List (List Char)} {rs : List (List (List Char))} (ne_nil : r ≠ [])
      (full : ∀ l ∈ r, l ≠ []) (ended : ∀ l, lines.head? = some l → l = [])
      (rest : MaximalRuns lines rs) : MaximalRuns (r ++ lines) (r :: rs)

/-- The function that finds them passes over the empty lines before a run and takes the run whole. -/
def runs (lines : List (List Char)) : List (List (List Char)) :=
  match h : lines.dropWhile List.isEmpty with
  | [] => []
  | l :: ls =>
    have : (ls.dropWhile (!·.isEmpty)).length < lines.length := by
      have hl := (List.dropWhile_suffix (l := lines) List.isEmpty).length_le
      have hr := (List.dropWhile_suffix (l := ls) (!·.isEmpty)).length_le
      simp only [h, List.length_cons] at hl
      omega
    (l :: ls.takeWhile (!·.isEmpty)) :: runs (ls.dropWhile (!·.isEmpty))
termination_by lines.length

theorem runs_of_empty (h : lines.dropWhile List.isEmpty = []) : runs lines = [] := by
  rw [runs]
  split
  · rfl
  · rename_i some
    rw [h] at some
    cases some

theorem runs_of_full {ls : List (List Char)} (h : lines.dropWhile List.isEmpty = l :: ls) :
    runs lines = (l :: ls.takeWhile (!·.isEmpty)) :: runs (ls.dropWhile (!·.isEmpty)) := by
  rw [runs]
  split
  · rename_i none
    rw [h] at none
    cases none
  · rename_i some
    rw [h] at some
    cases some
    rfl

theorem runs_blank (lines : List (List Char)) : runs ([] :: lines) = runs lines := by
  have passed : ([] :: lines).dropWhile List.isEmpty = lines.dropWhile List.isEmpty := rfl
  cases h : lines.dropWhile List.isEmpty with
  | nil => rw [runs_of_empty h, runs_of_empty (passed.trans h)]
  | cons l ls => rw [runs_of_full h, runs_of_full (passed.trans h)]

theorem runs_run (hr : r ≠ []) (full : ∀ l ∈ r, l ≠ [])
    (ended : ∀ l, lines.head? = some l → l = []) : runs (r ++ lines) = r :: runs lines := by
  cases r with
  | nil => exact absurd rfl hr
  | cons l r =>
    obtain ⟨first, others⟩ := List.forall_mem_cons.mp full
    have whole : ∀ m ∈ r, (!m.isEmpty) = true := by
      intro m hm
      simpa using others m hm
    have start : (l :: r ++ lines).dropWhile List.isEmpty = l :: (r ++ lines) :=
      List.dropWhile_cons_of_neg (by simpa using first)
    have stops : lines.takeWhile (!·.isEmpty) = [] ∧ lines.dropWhile (!·.isEmpty) = lines := by
      cases lines with
      | nil => exact ⟨rfl, rfl⟩
      | cons m lines =>
        rw [ended m rfl]
        exact ⟨rfl, rfl⟩
    rw [runs_of_full start, List.takeWhile_append_of_pos whole, List.dropWhile_append_of_pos whole,
      stops.1, stops.2, List.append_nil]

namespace MaximalRuns

/-- There is only one way to tell them. -/
theorem runs_eq (h : MaximalRuns lines rs) : runs lines = rs := by
  induction h with
  | done => exact runs_of_empty rfl
  | blank _ ih => rw [runs_blank, ih]
  | run ne_nil full ended _ ih => rw [runs_run ne_nil full ended, ih]

theorem of_dropWhile (h : MaximalRuns (lines.dropWhile List.isEmpty) rs) : MaximalRuns lines rs := by
  induction lines with
  | nil => exact h
  | cons l lines ih =>
    cases l with
    | nil => exact .blank (ih h)
    | cons c cs => exact h

theorem of_runs (lines : List (List Char)) : MaximalRuns lines (runs lines) := by
  induction lines using runs.induct with
  | case1 lines h =>
    rw [runs_of_empty h]
    exact of_dropWhile (h ▸ .done)
  | case2 lines l ls h _ ih =>
    have first := List.head?_dropWhile_not List.isEmpty lines
    have next := List.head?_dropWhile_not (!·.isEmpty) ls
    have full : ∀ m ∈ l :: ls.takeWhile (!·.isEmpty), m ≠ [] := by
      intro m hm
      rcases List.mem_cons.mp hm with rfl | hm
      · rw [h] at first
        simpa using first
      · simpa using List.mem_takeWhile_imp hm
    have ended : ∀ m, (ls.dropWhile (!·.isEmpty)).head? = some m → m = [] := by
      intro m hm
      rw [hm] at next
      simpa using next
    rw [runs_of_full h]
    refine of_dropWhile ?_
    have split : l :: ls = (l :: ls.takeWhile (!·.isEmpty)) ++ ls.dropWhile (!·.isEmpty) := by
      rw [List.cons_append, List.takeWhile_append_dropWhile]
    rw [h, split]
    exact .run (List.cons_ne_nil _ _) full ended ih

theorem ne_nil_of_mem (h : MaximalRuns lines rs) (hr : r ∈ rs) : r ≠ [] := by
  induction h with
  | done => cases hr
  | blank _ ih => exact ih hr
  | run ne_nil _ _ _ ih =>
    rcases List.mem_cons.mp hr with rfl | hr
    · exact ne_nil
    · exact ih hr

/-- No line that is not empty is lost, repeated or moved. -/
theorem flatten_eq (h : MaximalRuns lines rs) : rs.flatten = lines.filter (!·.isEmpty) := by
  induction h with
  | done => rfl
  | blank _ ih => exact ih
  | @run r lines rs _ full _ _ ih =>
    have whole : r.filter (!·.isEmpty) = r := by
      refine List.filter_eq_self.mpr ?_
      intro l hl
      simpa using full l hl
    rw [List.flatten_cons, ih, List.filter_append, whole]

end MaximalRuns

/-! ## Paragraphs -/

/-- The lines of a text without the blanks at their ends. -/
def trimmedLines (source : String) : List (List Char) :=
  (source.toList.splitOn '\n').map trim

/-- A run as one line. -/
def paragraphOf (run : List (List Char)) : String :=
  String.ofList ([' '].intercalate run)

namespace Gathered

theorem flush_flush (g : Gathered) : g.flush.flush = g.flush := by
  by_cases empty : g.current.isEmpty
  · have same : g.flush = g := if_pos empty
    rw [same, same]
  · have flushed : g.flush.current = [] := by rw [flush, if_neg empty]
    exact if_pos (by rw [flushed]; rfl)

theorem flush_of_run (hr : r ≠ []) (done : List String) :
    flush { paragraphs := done, current := r } = { paragraphs := done ++ [paragraphOf r] } :=
  if_neg (by simpa using hr)

theorem take_nil (g : Gathered) : g.take [] = g.flush :=
  rfl

/-- Lines that are not empty come to the paragraph at hand. -/
theorem foldl_take_of_full (full : ∀ l ∈ r, l ≠ []) (g : Gathered) :
    r.foldl take g = { g with current := g.current ++ r } := by
  induction r generalizing g with
  | nil => rw [List.foldl_nil, List.append_nil]
  | cons l r ih =>
    obtain ⟨first, others⟩ := List.forall_mem_cons.mp full
    have taken : g.take l = { g with current := g.current ++ [l] } := if_neg (by simpa using first)
    rw [List.foldl_cons, taken, ih others, List.append_assoc]
    rfl

/-- Before an empty line, or where the lines end, the paragraph at hand is complete. -/
theorem flush_foldl_take (ended : ∀ l, lines.head? = some l → l = []) (g : Gathered) :
    (lines.foldl take g.flush).flush = (lines.foldl take g).flush := by
  cases lines with
  | nil => exact g.flush_flush
  | cons l lines =>
    rw [ended l rfl, List.foldl_cons, List.foldl_cons, take_nil, take_nil, flush_flush]

/-- Each run comes to the paragraphs that are complete. -/
theorem paragraphs_of_runs (h : MaximalRuns lines rs) (done : List String) :
    (lines.foldl take { paragraphs := done }).flush =
      { paragraphs := done ++ rs.map paragraphOf } := by
  induction h generalizing done with
  | done => rw [List.map_nil, List.append_nil]; rfl
  | blank _ ih => exact ih done
  | @run r lines rs ne_nil full ended _ ih =>
    rw [List.foldl_append, foldl_take_of_full full, List.nil_append, ← flush_foldl_take ended,
      flush_of_run ne_nil, ih, List.map_cons, List.append_assoc, List.singleton_append]

end Gathered

/-- What the loop over the lines gathers are the runs. -/
theorem paragraphs_eq (source : String) :
    paragraphs source = (runs (trimmedLines source)).map paragraphOf := by
  have trimmed : (textLines source.toList).map trim =
      ((feedPieces source.toList).map lineOf).map trim := by
    rw [textLines, List.map_map, List.map_map]
    exact List.map_congr_left fun piece _ => trim_withoutFeed piece
  -- An empty line at the end only completes the paragraph at hand.
  have same : ((trimmedLines source).foldl Gathered.take {}).flush =
      (((textLines source.toList).map trim).foldl Gathered.take {}).flush := by
    obtain ⟨last, hlast, split⟩ := splitOn_eq_feedPieces source.toList
    rw [trimmedLines, split, List.map_append, ← trimmed, List.foldl_append]
    rcases hlast with rfl | rfl
    · rfl
    · exact Gathered.flush_flush _
  have gathered := Gathered.paragraphs_of_runs (MaximalRuns.of_runs (trimmedLines source)) []
  rw [same, List.foldl_map] at gathered
  exact congrArg Gathered.paragraphs gathered

theorem solid_of_mem_trimmedLines {source : String} (h : l ∈ trimmedLines source) (hl : l ≠ []) :
    Solid l := by
  obtain ⟨line, hline, rfl⟩ := List.mem_map.mp h
  exact .of_trim (not_mem_of_mem_splitOn hline) hl

theorem solid_of_mem_paragraphs {source p : String} (h : p ∈ paragraphs source) :
    Solid p.toList := by
  rw [paragraphs_eq] at h
  obtain ⟨run, hrun, rfl⟩ := List.mem_map.mp h
  have longest := MaximalRuns.of_runs (trimmedLines source)
  rw [paragraphOf, String.toList_ofList]
  refine Solid.join (longest.ne_nil_of_mem hrun) ?_
  intro l hl
  have there : l ∈ (runs (trimmedLines source)).flatten := List.mem_flatten_of_mem hrun hl
  rw [longest.flatten_eq, List.mem_filter] at there
  exact solid_of_mem_trimmedLines there.1 (by simpa using there.2)

/-- Behind a blank line each solid line is a run. -/
theorem maximalRuns_join {ps : List String} (hp : ∀ p ∈ ps, Solid p.toList) :
    MaximalRuns (trimmedLines ("\n\n".intercalate ps)) (ps.map fun p => [p.toList]) := by
  unfold trimmedLines
  rw [String.toList_intercalate]
  induction ps with
  | nil => exact .blank .done
  | cons p ps ih =>
    obtain ⟨here, others⟩ := List.forall_mem_cons.mp hp
    have alone : ∀ l ∈ [p.toList], l ≠ [] := by simpa using here.ne_nil
    cases ps with
    | nil =>
      have single : (p.toList.splitOn '\n').map trim = [p.toList] ++ [] := by
        rw [List.splitOn_eq_singleton here.unbroken, List.map_singleton, here.trim_eq]
        rfl
      rw [List.map_singleton, List.intercalate_singleton, single]
      exact .run (List.cons_ne_nil _ _) alone (by simp) .done
    | cons q ps =>
      have split (rest : List Char) : (p.toList ++ "\n\n".toList ++ rest).splitOn '\n' =
          p.toList :: [] :: rest.splitOn '\n' := by
        rw [List.append_assoc]
        show (p.toList ++ '\n' :: ([] ++ '\n' :: rest)).splitOn '\n' = _
        rw [List.splitOn_append_cons_self_of_not_mem here.unbroken,
          List.splitOn_append_cons_self_of_not_mem List.not_mem_nil]
      rw [List.map_cons, List.map_cons, List.intercalate_cons_cons, split, List.map_cons,
        List.map_cons, here.trim_eq, show trim [] = [] from rfl, ← List.map_cons]
      exact .run (List.cons_ne_nil _ _) alone (by simp) (.blank (ih others))

/-- Lines without blanks at their ends are read back when blank lines are put between them. -/
theorem paragraphs_join {ps : List String} (hp : ∀ p ∈ ps, Solid p.toList) :
    paragraphs ("\n\n".intercalate ps) = ps := by
  rw [paragraphs_eq, (maximalRuns_join hp).runs_eq, List.map_map]
  refine (List.map_congr_left ?_).trans (List.map_id ps)
  intro p _
  simp [paragraphOf]

/-- **Paragraphs are the runs of lines between blank ones.** The lines of the text are trimmed; the
longest runs of those that are not blank are the paragraphs, in order and with a space between two
lines, so that each such line stands in them once. A paragraph is a line that has no blanks at its
ends. With blank lines between them, the paragraphs are the paragraphs of the text they make. -/
theorem paragraphs_are_runs (source : String) :
    (∃ rs, MaximalRuns (trimmedLines source) rs ∧
      paragraphs source = rs.map paragraphOf ∧
      rs.flatten = (trimmedLines source).filter (!·.isEmpty)) ∧
    (∀ p ∈ paragraphs source, Solid p.toList) ∧
    paragraphs ("\n\n".intercalate (paragraphs source)) = paragraphs source := by
  have longest := MaximalRuns.of_runs (trimmedLines source)
  refine ⟨⟨_, longest, paragraphs_eq source, longest.flatten_eq⟩, ?_, ?_⟩
  · exact fun p => solid_of_mem_paragraphs
  · exact paragraphs_join fun p => solid_of_mem_paragraphs

theorem paragraphs_are_runs_mixed :
    paragraphs " one \r\ntwo\n \u2003\n\nthree" = ["one two", "three"] ∧
    Solid "one two".toList ∧ paragraphs "one two\n\nthree" = ["one two", "three"] := by
  have read : paragraphs " one \r\ntwo\n \u2003\n\nthree" = ["one two", "three"] := by
    decide +kernel
  obtain ⟨_, solid, again⟩ := paragraphs_are_runs " one \r\ntwo\n \u2003\n\nthree"
  rw [read] at solid again
  exact ⟨read, solid _ List.mem_cons_self, again⟩

end Hypertext.CommandLine
