import Curly.Proofs.Regions

/-!
# Sources that are no templates

What a source is not compiled for is told in full: the fault has a help text, and
points at a part of the source, or at its end if that came too early
(`Template.compile_complete`). A reader points at a token, or at a part that it read
before. So where the tokens lie one behind another in the source, so does what is
pointed at, and for the rest of the tokens the same holds after each part.
-/

namespace Curly

section
variable {source : List Char}

theorem Region.Proper.fits {r : Region} (h : r.Proper source) : r.Fits source := by
  obtain ⟨a, text, c, hsource, hr, -, -⟩ := h.exists_text
  exact ⟨a, text, c, hsource, hr⟩

theorem LaidOut.fits {tokens : List Token} (h : LaidOut source tokens) {t : Token} (ht : t ∈ tokens) :
    t.region.Fits source :=
  (h.proper t ht).fits

/-- If it fails, it points at a part of the source. -/
def Blames (source : List Char) {α : Type} (outcome : Except SyntaxError α) : Prop :=
  ∀ e, outcome = .error e → e.region.Fits source

namespace Blames

variable {α β : Type}

theorem ok (a : α) : Blames source (.ok a) := by
  intro e he
  cases he

theorem error {fault : SyntaxError.Fault} {region : Region} (h : region.Fits source) :
    Blames source (.error ⟨fault, region⟩ : Except SyntaxError α) := by
  intro e he
  obtain rfl := Except.error.inj he
  exact h

theorem map {outcome : Except SyntaxError α} (h : Blames source outcome) (f : α → β) :
    Blames source (outcome.map f) := by
  cases outcome with
  | ok a => exact .ok _
  | error e => exact .error (h e rfl)

theorem bind {outcome : Except SyntaxError α} {f : α → Except SyntaxError β} (h : Blames source outcome)
    (hf : ∀ a, outcome = .ok a → Blames source (f a)) : Blames source (outcome >>= f) := by
  cases outcome with
  | ok a => exact hf a rfl
  | error e => exact .error (h e rfl)

end Blames

/-! ## Expressions and calls -/

namespace Reading

variable {stop : Region} {tokens : List Token} {t : Token}

theorem expect_blames (hstop : stop.Fits source) (hl : LaidOut source tokens) (kind : Token.Kind) :
    Blames source (expect stop kind tokens) := by
  cases tokens with
  | nil => exact .error hstop
  | cons t rest =>
    have ht := hl.fits (List.mem_cons_self ..)
    rw [expect]
    split
    · exact .ok _
    · split
      · exact .error ht
      · exact .error ht

theorem quoted_blames (ht : t.region.Fits source) : Blames source (quoted t) := by
  unfold quoted
  split
  · exact .ok _
  · exact .error ht

theorem number_blames (ht : t.region.Fits source) : Blames source (number t) := by
  unfold number
  split
  · exact .ok _
  · exact .error ht

theorem path_blames (ht : t.region.Fits source) : Blames source (path t) := by
  unfold path
  split
  · exact .ok _
  · exact .error ht

theorem read_fits {n : Nat} {e : Expression} {rest : List Token} (hl : LaidOut source tokens)
    (h : expression stop n tokens = .ok (e, rest)) : e.region.Fits source ∧ LaidOut source rest := by
  obtain ⟨used, rfl, hs⟩ := expression_sound n h
  obtain ⟨hused, hrest, -⟩ := hl.append
  exact ⟨(hs.wellPlaced hused).proper.fits, hrest⟩

theorem call_fits {n : Nat} {c : Call Expression} {rest : List Token} (hl : LaidOut source tokens)
    (h : call stop n tokens = .ok (c, rest)) :
    c.region.Fits source ∧ c.head.region.Fits source ∧ LaidOut source rest := by
  obtain ⟨used, rfl, hs, -⟩ := call_sound n h
  obtain ⟨hused, hrest, -⟩ := hl.append
  obtain ⟨hregion, -, hhead, -⟩ := hs.wellPlaced hused
  exact ⟨hregion.fits, hhead.proper.fits, hrest⟩

mutual

theorem expression_blames (hstop : stop.Fits source) :
    ∀ (n : Nat) {tokens : List Token}, LaidOut source tokens → Blames source (expression stop n tokens)
  | 0, _, _ => .error hstop
  | n + 1, [], _ => .error hstop
  | n + 1, t :: rest, hl => by
    have ht := hl.fits (List.mem_cons_self ..)
    have hgroup := group_blames hstop n t.region hl.cons.1
    rw [expression]
    split
    · exact (path_blames ht).map _
    · exact (quoted_blames ht).map _
    · exact (number_blames ht).map _
    · exact .ok _
    · exact .ok _
    · exact .ok _
    · exact hgroup.map _
    · exact .error ht
    · exact .error ht

theorem group_blames (hstop : stop.Fits source) :
    ∀ (n : Nat) (opening : Region) {tokens : List Token}, LaidOut source tokens →
      Blames source (group stop n opening tokens)
  | 0, _, _, _ => .error hstop
  | n + 1, opening, tokens, hl => by
    have hcall := call_blames hstop n hl
    rw [group]
    cases hc : call stop n tokens with
    | error e => exact .error (hcall e hc)
    | ok r =>
      obtain ⟨c, rest⟩ := r
      obtain ⟨-, hhead, hrest⟩ := call_fits hl hc
      have hclosing := expect_blames hstop hrest .endGroup
      dsimp only
      cases he : expect stop .endGroup rest with
      | error e => exact .error (hclosing e he)
      | ok r =>
        dsimp only
        split
        · rename_i p hp
          rw [hp] at hhead
          split
          · exact .ok _
          · exact .error hhead
        · exact .error hhead

theorem call_blames (hstop : stop.Fits source) :
    ∀ (n : Nat) {tokens : List Token}, LaidOut source tokens → Blames source (call stop n tokens)
  | 0, _, _ => .error hstop
  | n + 1, tokens, hl => by
    have hexpression := expression_blames hstop n hl
    rw [call]
    cases he : expression stop n tokens with
    | error e => exact .error (hexpression e he)
    | ok r =>
      obtain ⟨head, rest⟩ := r
      exact (operands_blames hstop n head.region [] [] (read_fits hl he).2).map _

theorem operands_blames (hstop : stop.Fits source) :
    ∀ (n : Nat) (region : Region) (positional : List Expression) (named : List (String × Expression))
      {tokens : List Token}, LaidOut source tokens → Blames source (operands stop n region positional named tokens)
  | 0, _, _, _, _, _ => .error hstop
  | n + 1, _, _, _, [], _ => .ok _
  | n + 1, region, positional, named, t :: rest, hl => by
    have hargument := expression_blames hstop n hl
    rw [operands]
    split
    · exact .ok _
    · cases he : expression stop n (t :: rest) with
      | error e => exact .error (hargument e he)
      | ok r =>
        obtain ⟨argument, rest⟩ := r
        obtain ⟨hregion, hrest⟩ := read_fits hl he
        dsimp only
        split
        · rename_i p text assign rest
          have hassign : assign.Fits source := hrest.fits (List.mem_cons_self ..)
          have hvalue := expression_blames hstop n hrest.cons.1
          split
          · exact .error (hregion.combine hassign)
          · cases hv : expression stop n rest with
            | error e => exact .error (hvalue e hv)
            | ok r => exact operands_blames hstop n _ _ _ (read_fits hrest.cons.1 hv).2
        · split
          · exact operands_blames hstop n _ _ _ hrest
          · exact .error hregion

end

/-! ## Tags -/

theorem rawOutput_blames (hstop : stop.Fits source) (hl : LaidOut source tokens) (marker : Token) :
    Blames source (rawOutput stop marker tokens) := by
  refine (call_blames hstop _ hl).bind fun r hr => ?_
  exact (expect_blames hstop (call_fits hl hr).2.2 _).bind fun _ _ => .ok _

theorem output_blames (hstop : stop.Fits source) (hl : LaidOut source tokens) (marker : Region) :
    Blames source (output stop marker tokens) := by
  refine (call_blames hstop _ hl).bind fun r hr => ?_
  exact (expect_blames hstop (call_fits hl hr).2.2 _).bind fun _ _ => .ok _

theorem blockHead_blames (hstop : stop.Fits source) (hl : LaidOut source tokens) :
    Blames source (blockHead stop tokens) := by
  refine (call_blames hstop _ hl).bind fun r hr => ?_
  obtain ⟨c, rest⟩ := r
  obtain ⟨-, hhead, -⟩ := call_fits hl hr
  dsimp only
  split
  · exact .ok _
  · exact .error hhead

theorem opening_blames (hstop : stop.Fits source) (hl : LaidOut source tokens) (marker : Region) (negated : Bool) :
    Blames source (opening stop marker negated tokens) := by
  refine (blockHead_blames hstop hl).bind fun r hr => ?_
  obtain ⟨c, rest⟩ := r
  obtain ⟨used, rfl, hs, -⟩ := blockHead_sound hr
  obtain ⟨hused, hrest, -⟩ := hl.append
  dsimp only
  split
  · exact .error (hs.wellPlaced hused).1.fits
  · exact (expect_blames hstop hrest _).bind fun _ _ => .ok _

theorem caret_blames (hstop : stop.Fits source) (hl : LaidOut source tokens) (marker : Region) :
    Blames source (Reading.caret stop marker tokens) := by
  unfold Reading.caret
  split
  · exact .ok _
  · exact (opening_blames hstop hl marker true).map _

theorem alternative_blames (hstop : stop.Fits source) (hl : LaidOut source tokens) (marker : Region) :
    Blames source (alternative stop marker tokens) := by
  unfold alternative
  split
  · exact .ok _
  · exact (opening_blames hstop hl marker false).map _

theorem closing_blames (hstop : stop.Fits source) (hl : LaidOut source tokens) (marker : Region) :
    Blames source (closing stop marker tokens) := by
  unfold closing
  split
  · exact (expect_blames hstop hl.cons.1 _).map _
  · exact (expect_blames hstop hl _).map _

theorem partialName_blames (hstop : stop.Fits source) (hl : LaidOut source tokens) :
    Blames source (partialName stop tokens) := by
  cases tokens with
  | nil => exact .error hstop
  | cons t rest =>
    have ht := hl.fits (List.mem_cons_self ..)
    rw [partialName]
    split
    · exact .ok _
    · exact (quoted_blames ht).map _
    · exact (group_blames hstop _ t.region hl.cons.1).map _
    · exact .error ht
    · exact .error ht

theorem inclusion_blames (hstop : stop.Fits source) (hl : LaidOut source tokens) (marker : Region) :
    Blames source (inclusion stop marker tokens) := by
  refine (partialName_blames hstop hl).bind fun r hr => ?_
  obtain ⟨used, rfl, -⟩ := partialName_sound hr
  have hrest := hl.append.2.1
  dsimp only
  split
  · exact .ok _
  · refine (expression_blames hstop _ hrest).bind fun r hr => ?_
    exact (expect_blames hstop (read_fits hrest hr).2 _).bind fun _ _ => .ok _

theorem tag_blames (hstop : stop.Fits source) (hl : LaidOut source tokens) (marker : Region) :
    Blames source (Reading.tag stop marker tokens) := by
  unfold Reading.tag
  split
  · exact (opening_blames hstop hl.cons.1 marker false).map _
  · exact caret_blames hstop hl.cons.1 marker
  · exact alternative_blames hstop hl.cons.1 marker
  · exact closing_blames hstop hl.cons.1 marker
  · exact inclusion_blames hstop hl.cons.1 marker
  · exact output_blames hstop hl marker

theorem part_blames (hstop : stop.Fits source) (hl : LaidOut source (t :: tokens)) :
    Blames source (part stop t tokens) := by
  have ht := hl.fits (List.mem_cons_self ..)
  unfold part
  split
  · exact .ok _
  · exact .ok _
  · exact (rawOutput_blames hstop hl.cons.1 t).map _
  · exact (tag_blames hstop hl.cons.1 t.region).map _
  · exact .error ht
  · exact .error ht

end Reading

/-! ## Blocks -/

/-- The regions that a tag is pointed at by when it does not fit in its block. -/
def Tag.marks : Tag → List Region
  | .node _ => []
  | .opening o => [o.region]
  | .alternative marker => [marker]
  | .alternativeOpening marker o => [marker, o.region]
  | .closing name region => region :: name.toList.map Prod.snd

theorem SpellsPart.marks {used : List Token} {part : Option Tag} (h : SpellsPart used part)
    (hl : LaidOut source used) : ∀ tag ∈ part, ∀ r ∈ tag.marks, r.Fits source := by
  cases h with
  | raw | comment | rawOutput => simp [Tag.marks]
  | @tag marker closing used tag _ _ ht =>
    have hmarker := hl.fits (List.mem_cons_self ..)
    have hclosing : closing.region.Fits source := hl.fits (by simp)
    have hwhole := hmarker.combine hclosing
    cases ht with
    | output | inclusion => simp [Tag.marks]
    | opening | negated => simpa [Tag.marks] using hwhole
    | caret | alternative => simpa [Tag.marks] using hmarker
    | alternativeOpening => simpa [Tag.marks] using ⟨hmarker, hwhole⟩
    | closing => simpa [Tag.marks] using hwhole
    | @closingName slash name _ _ =>
      have hname : name.region.Fits source := hl.fits (by simp)
      simpa [Tag.marks] using ⟨hwhole, hname⟩

theorem Reading.tags_blames {stop : Region} (hstop : stop.Fits source) (count : Nat) {tokens : List Token}
    (hl : LaidOut source tokens) :
    (∀ tag ∈ (tags stop count tokens).1, ∀ r ∈ tag.marks, r.Fits source) ∧
      ∀ e ∈ (tags stop count tokens).2, e.region.Fits source := by
  induction count generalizing tokens with
  | zero =>
    cases tokens with
    | nil => simp [tags]
    | cons t tokens => simpa [tags] using hstop
  | succ count ih =>
    cases tokens with
    | nil => simp [tags]
    | cons t tokens =>
      rw [tags]
      cases hp : part stop t tokens with
      | error e => simpa using part_blames hstop hl e hp
      | ok r =>
        obtain ⟨part, rest⟩ := r
        obtain ⟨used, hused, hs⟩ := part_sound hp
        rw [hused] at hl
        obtain ⟨hmarks, herror⟩ := ih hl.append.2.1
        refine ⟨?_, herror⟩
        intro tag htag
        rcases List.mem_append.mp htag with htag | htag
        · exact hs.marks hl.append.1 tag (Option.mem_toList.mp htag)
        · exact hmarks tag htag

namespace Outline

/-- All open blocks are opened by parts of the source. -/
def Placed (source : List Char) (levels : List Level) : Prop :=
  ∀ l ∈ levels, l.opening.region.Fits source

theorem alternative_blames {marker : Region} (hmarker : marker.Fits source) (o : Outline) :
    Blames source (o.alternative marker) := by
  unfold alternative
  split
  · exact .error hmarker
  · split
    · exact .error hmarker
    · exact .ok _

theorem alternative_placed {marker : Region} {o o' : Outline} (h : Placed source o.levels)
    (ha : o.alternative marker = .ok o') : Placed source o'.levels := by
  unfold alternative at ha
  cases hl : o.levels with
  | nil => simp [hl] at ha
  | cons l rest =>
    rw [hl] at h ha
    dsimp only at ha
    split at ha
    · cases ha
    · obtain rfl := Except.ok.inj ha
      exact List.forall_mem_cons.mpr (List.forall_mem_cons.mp h)

theorem close_blames {name : Option (List Char × Region)} {region : Region} (hregion : region.Fits source)
    (hname : ∀ n ∈ name, n.2.Fits source) (nodes : List Node) (levels : List Level) :
    Blames source (close name region nodes levels) := by
  induction levels generalizing nodes with
  | nil => exact .error hregion
  | cons l levels ih =>
    rw [close_cons]
    unfold closeWith
    split
    · exact ih _
    · split
      · split
        · exact .ok _
        · exact .error (hname _ rfl)
      · exact .ok _

theorem close_placed {name : Option (List Char × Region)} {region : Region} {nodes : List Node} {levels : List Level}
    {o : Outline} (h : Placed source levels) (hc : close name region nodes levels = .ok o) :
    Placed source o.levels := by
  induction levels generalizing nodes with
  | nil => cases hc
  | cons l levels ih =>
    obtain ⟨-, hrest⟩ := List.forall_mem_cons.mp h
    rw [close_cons] at hc
    cases hl : l.chained with
    | true =>
      unfold closeWith at hc
      rw [hl, if_pos rfl] at hc
      exact ih hrest hc
    | false =>
      obtain ⟨-, rfl⟩ := (closeWith_ok hl).mp hc
      exact hrest

theorem add_blames {o : Outline} {tag : Tag} (htag : ∀ r ∈ tag.marks, r.Fits source) :
    Blames source (o.add tag) := by
  cases tag with
  | node | opening => exact .ok _
  | alternative marker => exact alternative_blames (htag marker (List.mem_cons_self ..)) o
  | alternativeOpening marker p =>
    have halternative := alternative_blames (htag marker (List.mem_cons_self ..)) o
    rw [add]
    cases ha : o.alternative marker with
    | ok o' => exact .ok _
    | error e => exact .error (halternative e ha)
  | closing name region =>
    refine close_blames (htag region (List.mem_cons_self ..)) (fun n hn => htag n.2 ?_) o.nodes o.levels
    exact List.mem_cons_of_mem _ (List.mem_map_of_mem (Option.mem_toList.mpr hn))

theorem add_placed {o o' : Outline} {tag : Tag} (h : Placed source o.levels) (htag : ∀ r ∈ tag.marks, r.Fits source)
    (ha : o.add tag = .ok o') : Placed source o'.levels := by
  cases tag with
  | node n =>
    obtain rfl := Except.ok.inj ha
    exact h
  | opening p =>
    obtain rfl := Except.ok.inj ha
    exact List.forall_mem_cons.mpr ⟨htag p.region (List.mem_cons_self ..), h⟩
  | alternative marker => exact alternative_placed h ha
  | alternativeOpening marker p =>
    rw [add] at ha
    cases halternative : o.alternative marker with
    | error e => simp [halternative] at ha
    | ok q =>
      rw [halternative] at ha
      obtain rfl := Except.ok.inj ha
      have hopening : p.region.Fits source := htag p.region (by simp [Tag.marks])
      exact List.forall_mem_cons.mpr ⟨hopening, alternative_placed h halternative⟩
  | closing name region => exact close_placed h ha

theorem addAll_blames {tags : List Tag} (htags : ∀ tag ∈ tags, ∀ r ∈ tag.marks, r.Fits source) {o : Outline}
    (h : Placed source o.levels) :
    Blames source (o.addAll tags) ∧ ∀ o', o.addAll tags = .ok o' → Placed source o'.levels := by
  induction tags generalizing o with
  | nil =>
    refine ⟨.ok _, fun o' ho => ?_⟩
    obtain rfl := Except.ok.inj ho
    exact h
  | cons tag tags ih =>
    obtain ⟨htag, htags⟩ := List.forall_mem_cons.mp htags
    cases ha : o.add tag with
    | error e =>
      rw [addAll, ha]
      refine ⟨.error (add_blames htag e ha), ?_⟩
      intro o' ho
      cases ho
    | ok o' =>
      rw [addAll_cons_ok ha]
      exact ih htags (add_placed h htag ha)

theorem finish_blames {o : Outline} (h : Placed source o.levels) : Blames source o.finish := by
  unfold finish
  split
  · rename_i l hl
    exact .error (h l (List.mem_of_find?_eq_some hl))
  · exact .ok _

end Outline

theorem Node.ofSource_blames (source : List Char) : Blames source (Node.ofSource source) := by
  have hstop : Region.Fits source ⟨byteLength source, byteLength source⟩ := ⟨source, [], [], by simp, rfl⟩
  obtain ⟨hmarks, hrest⟩ := Reading.tags_blames hstop (Token.ofSource source).length (laidOut_ofSource source)
  have hempty : Outline.Placed source Outline.empty.levels := by
    intro l hl
    cases hl
  obtain ⟨hadd, hplaced⟩ := Outline.addAll_blames hmarks hempty
  unfold ofSource Tag.ofSource
  dsimp only
  split
  · rename_i e ha
    exact .error (hadd e ha)
  · rename_i e _ he
    exact .error (hrest e he)
  · rename_i o ha _
    exact Outline.finish_blames (hplaced o ha)

end

/-! ## Templates -/

theorem Template.compile_error {name : Option String} {source : String} {d : Diagnostic}
    (h : Template.compile name source = .error d) :
    ∃ e, Node.ofSource source.toList = .error e ∧ d.cause = .parse ∧
      d.excerpt = some (.ofSource source.toList e.region) ∧ d.help = some e.fault.help ∧ d.name = name := by
  unfold Template.compile at h
  cases hn : Node.ofSource source.toList with
  | ok nodes => simp [hn] at h
  | error e =>
    rw [hn] at h
    obtain rfl := Except.error.inj h
    cases name with
    | none => exact ⟨e, rfl, rfl, rfl, rfl, rfl⟩
    | some name => exact ⟨e, rfl, rfl, rfl, rfl, rfl⟩

/-- A source is compiled by all of its tokens, each of which has a meaning. Else what is wrong is told with the given
name and a help text, and points at a part of the source. -/
theorem Template.compile_complete (name : Option String) (source : String) :
    (∃ t tags, Template.compile name source = .ok t ∧ t.name = name ∧ t.source = source ∧
      SpellsTags (Token.ofSource source.toList) tags ∧ SpellsScope Opening.name tags t.nodes ∧
      ∀ token ∈ Token.ofSource source.toList, ∀ fault, token.kind ≠ .invalid fault) ∨
    ∃ d region help, Template.compile name source = .error d ∧ d.cause = .parse ∧ region.Fits source.toList ∧
      d.excerpt = some (.ofSource source.toList region) ∧ d.help = some help ∧ d.name = name := by
  cases hc : Template.compile name source with
  | ok t =>
    obtain ⟨hname, hsource, hnodes⟩ := Template.compile_ok_iff.mp hc
    obtain ⟨tags, htags, hscope⟩ := Node.ofSource_eq_iff.mp hnodes
    refine .inl ⟨t, tags, rfl, hname, hsource, htags, hscope, ?_⟩
    intro token ht fault hinvalid
    have hkind := htags.kind token ht
    rw [hinvalid] at hkind
    simp [Token.Kind.begins, Token.Kind.continues] at hkind
  | error d =>
    obtain ⟨e, he, hcause, hexcerpt, hhelp, hname⟩ := Template.compile_error hc
    exact .inr ⟨d, e.region, e.fault.help, rfl, hcause, Node.ofSource_blames _ e he, hexcerpt, hhelp, hname⟩

end Curly
