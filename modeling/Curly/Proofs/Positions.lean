import Mathlib.Data.List.DropRight
import Curly.Excerpt
import Curly.Proofs.Scan.Tokens

/-!
# Positions in a source

An excerpt is made for any region (`Excerpt.measured?_eq`). Where the region starts
between two characters, the excerpt shows the line that holds its start, at the
column that the text before it in this line takes, however the width of a text is
measured (`Excerpt.measured_position`), and so also for the width in which it is
displayed (`Excerpt.ofSource_position`). A newline at the end of the source begins no
line, so what starts behind it is shown at the end of the line that it ends.
-/

namespace Curly

namespace Excerpt

/-! ## Steps that could fail -/

def difference? (a b : Nat) : Option Nat :=
  if b ≤ a then some (a - b) else none

def clamp? (low high n : Nat) : Option Nat :=
  if low ≤ high then some (max low (min n high)) else none

section
variable (width : List Char → Nat)

/-- Goes through the lines behind those passed, in bytes, up to the one that holds the offset, if any does. -/
def search? (offset : Nat) : Nat → Nat → List (List Char) → Option (Option (Nat × Nat))
  | _, _, [] => some none
  | line, passed, l :: ls =>
    if offset < passed + (byteLength l + 1) then do
      let within ← difference? offset passed
      some (some (line, width ((takeBytes? within l).getD l)))
    else search? offset (line + 1) (passed + (byteLength l + 1)) ls

def locate? (ls : List (List Char)) (offset : Nat) : Option (Nat × Nat) :=
  (search? width offset 0 0 ls).map fun found => found.getD (ls.length - 1, (ls.getLast?.map width).getD 0)

/-- The excerpt by a search through all lines. There is none if a difference is negative, or bounds are not in
order. -/
def measured? (source : List Char) (region : Region) : Option Excerpt := do
  let size := byteLength source
  let start := min region.start size
  let stop ← clamp? start size region.stop
  let ls := lines source
  let (line, column) ← locate? width ls start
  return {
    line := line
    column := column
    length := max 1 (width (firstLine (Region.slice ⟨start, stop⟩ source)))
    text := String.ofList (withoutReturns (((ls[line]?).or ls.getLast?).getD [])) }

end

def ofSource? (source : List Char) (region : Region) : Option Excerpt :=
  measured? Text.width source region

section
variable {width : List Char → Nat}

/-- The search never passes the offset. -/
theorem search?_eq {ls : List (List Char)} {offset passed : Nat} (h : passed ≤ offset) (line : Nat) :
    (search? width offset line passed ls).map (·.getD (line + (ls.length - 1), (ls.getLast?.map width).getD 0)) =
      some (line + (locate width ls (offset - passed)).1, (locate width ls (offset - passed)).2) := by
  induction ls generalizing line passed with
  | nil => rfl
  | cons l ls ih =>
    rw [search?, locate]
    by_cases hin : offset < passed + (byteLength l + 1)
    · have hin' : offset - passed < byteLength l + 1 := by omega
      rw [if_pos hin, if_pos hin', difference?, if_pos h]
      rfl
    · have hin' : ¬ offset - passed < byteLength l + 1 := by omega
      rw [if_neg hin, if_neg hin']
      cases ls with
      | nil => rfl
      | cons l' ls =>
        have hpassed : passed + (byteLength l + 1) ≤ offset := by omega
        have hbehind := ih hpassed (line + 1)
        have hlast : line + 1 + ((l' :: ls).length - 1) = line + ((l :: l' :: ls).length - 1) := by
          simp only [List.length_cons]
          omega
        rw [hlast, Nat.sub_add_eq, Nat.add_assoc, Nat.add_comm 1] at hbehind
        exact hbehind

theorem locate?_eq (ls : List (List Char)) (offset : Nat) :
    locate? width ls offset = some (locate width ls offset) := by
  have hsearch := @search?_eq width ls offset 0 (Nat.zero_le offset) 0
  simpa [locate?] using hsearch

theorem measured?_eq (source : List Char) (region : Region) :
    measured? width source region = some (measured width source region) := by
  have hclamp : min region.start (byteLength source) ≤ byteLength source := Nat.min_le_right _ _
  have htext : ∀ line, (((lines source)[line]?).or (lines source).getLast?).getD [] =
      (lines source).getD line ((lines source).getLastD []) := by
    intro line
    rw [List.getD_eq_getElem?_getD, List.getLastD_eq_getLast?]
    cases (lines source)[line]? <;> rfl
  simp only [measured?, clamp?, if_pos hclamp, locate?_eq, htext]
  rfl

end

/-! ## Lines -/

theorem newline_induction {P : List Char → Prop} (last : ∀ l, '\n' ∉ l → P l)
    (line : ∀ l rest, '\n' ∉ l → P rest → P (l ++ '\n' :: rest)) (text : List Char) : P text := by
  by_cases hmem : '\n' ∈ text
  · obtain ⟨l, rest, heq, hl⟩ := List.eq_append_cons_of_mem hmem
    have hshorter : rest.length < text.length := by
      rw [heq]
      simp
      omega
    rw [heq]
    exact line l rest hl (newline_induction last line rest)
  · exact last text hmem
termination_by text.length

theorem lines_newline {l : List Char} (hl : '\n' ∉ l) (rest : List Char) :
    lines (l ++ '\n' :: rest) = l :: lines rest := by
  induction l with
  | nil => rfl
  | cons c l ih =>
    rw [List.mem_cons, not_or] at hl
    rw [List.cons_append, lines, if_neg (Ne.symm hl.1), ih hl.2]

/-- The first line of a text that is not empty, and those behind it. -/
theorem exists_lines {text : List Char} (h : text ≠ []) :
    ∃ ls, lines text = text.takeWhile (· ≠ '\n') :: ls := by
  induction text with
  | nil => exact absurd rfl h
  | cons c cs ih =>
    by_cases hc : c = '\n'
    · subst hc
      exact ⟨lines cs, rfl⟩
    · rw [List.takeWhile_cons_of_pos (by simpa using hc), lines, if_neg hc]
      by_cases hcs : cs = []
      · subst hcs
        exact ⟨[], rfl⟩
      · obtain ⟨ls, hls⟩ := ih hcs
        rw [hls]
        exact ⟨ls, rfl⟩

def lastLine (text : List Char) : List Char :=
  text.rtakeWhile (· ≠ '\n')

theorem lastLine_of_notMem {l : List Char} (hl : '\n' ∉ l) : lastLine l = l := by
  refine List.rtakeWhile_eq_self_iff.mpr fun c hc => ?_
  simpa using ne_of_mem_of_not_mem hc hl

theorem lastLine_newline (l rest : List Char) : lastLine (l ++ '\n' :: rest) = lastLine rest := by
  induction rest using List.reverseRecOn with
  | nil => simp [lastLine]
  | append_singleton rest c ih =>
    rw [← List.cons_append, ← List.append_assoc, lastLine, lastLine, List.rtakeWhile_concat, List.rtakeWhile_concat]
    split
    · rw [← lastLine, ih, lastLine]
    · rfl

/-! ## Places -/

/-- What stands before the place that is shown for a place in a text: all before it, but not a newline that the text
ends in. -/
def shownBefore (before after : List Char) : List Char :=
  if after = [] ∧ before.getLast? = some '\n' then before.dropLast else before

theorem shownBefore_of_notMem {l : List Char} (hl : '\n' ∉ l) (after : List Char) : shownBefore l after = l := by
  refine if_neg fun h => hl ?_
  exact List.mem_of_getLast? h.2

theorem shownBefore_newline {rest after : List Char} (h : rest ++ after ≠ []) (l : List Char) :
    shownBefore (l ++ '\n' :: rest) after = l ++ '\n' :: shownBefore rest after := by
  unfold shownBefore
  by_cases hrest : rest = []
  · have hafter : after ≠ [] := by
      intro hafter
      rw [hrest, hafter] at h
      exact h rfl
    rw [if_neg fun h => hafter h.1, if_neg fun h => hafter h.1]
  · have hlast : (l ++ '\n' :: rest).getLast? = rest.getLast? := by
      rw [List.getLast?_append_of_ne_nil _ (List.cons_ne_nil _ _), List.getLast?_cons_of_ne_nil hrest]
    have hdrop : (l ++ '\n' :: rest).dropLast = l ++ '\n' :: rest.dropLast := by
      rw [List.dropLast_append_of_ne_nil (List.cons_ne_nil _ _), List.dropLast_cons_of_ne_nil hrest]
    rw [hlast, hdrop]
    split <;> rfl

/-- The search comes to the line that holds the place, counted by the newlines before it. -/
theorem locate_lines {width : List Char → Nat} (hwidth : width [] = 0) (before after : List Char) :
    locate width (lines (before ++ after)) (byteLength before) =
        ((shownBefore before after).count '\n', width (lastLine (shownBefore before after))) ∧
      (before ++ after ≠ [] → (lines (before ++ after))[(shownBefore before after).count '\n']? =
        some (lastLine (shownBefore before after) ++ after.takeWhile (· ≠ '\n'))) := by
  induction before using newline_induction with
  | last l hl =>
    rw [shownBefore_of_notMem hl, lastLine_of_notMem hl, List.count_eq_zero.mpr hl]
    by_cases hne : l ++ after = []
    · obtain ⟨rfl, rfl⟩ := List.append_eq_nil_iff.mp hne
      exact ⟨Prod.ext rfl hwidth.symm, fun h => absurd rfl h⟩
    · obtain ⟨ls, hls⟩ := exists_lines hne
      have hline : (l ++ after).takeWhile (· ≠ '\n') = l ++ after.takeWhile (· ≠ '\n') :=
        List.takeWhile_append_of_pos fun c hc => by simpa using ne_of_mem_of_not_mem hc hl
      rw [hls, hline]
      refine ⟨?_, fun _ => rfl⟩
      rw [locate, if_pos (by rw [byteLength_append]; omega), takeBytes?_append, Option.getD_some]
  | line l rest hl ih =>
    rw [List.append_assoc, List.cons_append, lines_newline hl]
    have hsize : byteLength (l ++ '\n' :: rest) = byteLength l + 1 + byteLength rest := by
      rw [byteLength_append, byteLength, Nat.add_assoc]
      rfl
    rw [hsize, locate, if_neg (by omega), Nat.add_sub_cancel_left]
    by_cases hend : rest ++ after = []
    · obtain ⟨rfl, rfl⟩ := List.append_eq_nil_iff.mp hend
      have hshown : shownBefore (l ++ ['\n']) [] = l := by
        rw [shownBefore, if_pos ⟨rfl, List.getLast?_concat⟩, List.dropLast_concat]
      rw [hshown, lastLine_of_notMem hl, List.count_eq_zero.mpr hl]
      exact ⟨rfl, fun _ => by simp⟩
    · obtain ⟨hplace, hline⟩ := ih
      have hmore : (lines (rest ++ after)).isEmpty = false := by
        obtain ⟨ls, hls⟩ := exists_lines hend
        rw [hls]
        rfl
      rw [shownBefore_newline hend, lastLine_newline, List.count_append, List.count_eq_zero.mpr hl,
        List.count_cons_self, Nat.zero_add, hmore, hplace]
      exact ⟨rfl, fun _ => hline hend⟩

/-- However the width of a text is measured, if an empty text takes none. -/
theorem measured_position {width : List Char → Nat} (hwidth : width [] = 0) {before after : List Char} {region : Region}
    (hstart : byteLength before = min region.start (byteLength (before ++ after))) :
    (measured width (before ++ after) region).line = (shownBefore before after).count '\n' ∧
      (measured width (before ++ after) region).column = width (lastLine (shownBefore before after)) ∧
      (measured width (before ++ after) region).text = String.ofList ((lastLine (shownBefore before after) ++
        after.takeWhile (· ≠ '\n')).rdropWhile (· = '\r')) := by
  obtain ⟨hplace, hline⟩ := locate_lines hwidth before after
  have htext : (lines (before ++ after)).getD ((shownBefore before after).count '\n')
      ((lines (before ++ after)).getLastD []) =
        lastLine (shownBefore before after) ++ after.takeWhile (· ≠ '\n') := by
    by_cases hempty : before ++ after = []
    · obtain ⟨rfl, rfl⟩ := List.append_eq_nil_iff.mp hempty
      rfl
    · rw [List.getD_eq_getElem?_getD, hline hempty, Option.getD_some]
  unfold measured
  simp only [← hstart, hplace, htext]
  exact ⟨trivial, trivial, rfl⟩

/-- An excerpt is made for every region, in range or not. Where the region starts between two characters, the line is
counted by the newlines before the place, the column is the width of what stands before it in its line, and the text is
that line without carriage returns at its end. -/
theorem ofSource_position (source : List Char) (region : Region) :
    ofSource? source region = some (ofSource source region) ∧
      ∀ before after, source = before ++ after → byteLength before = min region.start (byteLength source) →
        (ofSource source region).line = (shownBefore before after).count '\n' ∧
        (ofSource source region).column = Text.width (lastLine (shownBefore before after)) ∧
        (ofSource source region).text = String.ofList ((lastLine (shownBefore before after) ++
          after.takeWhile (· ≠ '\n')).rdropWhile (· = '\r')) := by
  refine ⟨measured?_eq source region, ?_⟩
  intro before after hsource hstart
  subst hsource
  exact measured_position rfl hstart

/-- Behind the newline that the source ends in, the end of the line before it is shown. -/
theorem ofSource_position_end :
    (ofSource "ab\ncd\r\n".toList ⟨9, 4⟩).line = 1 ∧ (ofSource "ab\ncd\r\n".toList ⟨9, 4⟩).text = "cd" ∧
      (ofSource "ab\ncd\r\n".toList ⟨4, 2⟩).column = 1 := by
  have hend := (ofSource_position "ab\ncd\r\n".toList ⟨9, 4⟩).2 "ab\ncd\r\n".toList [] rfl rfl
  have hwithin := (ofSource_position "ab\ncd\r\n".toList ⟨4, 2⟩).2 "ab\nc".toList "d\r\n".toList rfl rfl
  refine ⟨hend.1.trans ?_, hend.2.2.trans ?_, hwithin.2.1.trans ?_⟩
  · decide
  · decide
  · decide

end Excerpt

end Curly
