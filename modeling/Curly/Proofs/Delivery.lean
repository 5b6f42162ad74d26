import Curly.Proofs.Escaping
import Curly.Proofs.Scan.Tokens
import Curly.Run

/-!
# Escaped texts in a sink

Text is escaped by a loop over its bytes (`Text.walk`), which cuts the text in front
of each special character and writes the cut, then the entity. Every cut is on
character boundaries. A sink without room for all of it has taken the escaped form of
some first characters of the text, and so no part of an entity or of a character
(`Run.into_writeEscaped`).
-/

namespace Curly

namespace Text

/-! ## Reading entities back -/

def decodedChars : List Char → List Char
  | '&' :: 'a' :: 'm' :: 'p' :: ';' :: cs => '&' :: decodedChars cs
  | '&' :: 'l' :: 't' :: ';' :: cs => '<' :: decodedChars cs
  | '&' :: 'g' :: 't' :: ';' :: cs => '>' :: decodedChars cs
  | '&' :: 'q' :: 'u' :: 'o' :: 't' :: ';' :: cs => '\x22' :: decodedChars cs
  | '&' :: '#' :: 'x' :: '2' :: '7' :: ';' :: cs => '\x27' :: decodedChars cs
  | '&' :: '#' :: 'x' :: '6' :: '0' :: ';' :: cs => '\x60' :: decodedChars cs
  | '&' :: '#' :: 'x' :: '3' :: 'D' :: ';' :: cs => '=' :: decodedChars cs
  | c :: cs => c :: decodedChars cs
  | [] => []

/-- The text with a character for each of the seven entities. -/
def decoded (text : String) : String :=
  String.ofList (decodedChars text.toList)

theorem decodedChars_of_ne {c : Char} (h : c ≠ '&') (cs : List Char) :
    decodedChars (c :: cs) = c :: decodedChars cs := by
  rw [decodedChars]
  all_goals simp [h]

theorem decodedChars_escapedChar (c : Char) (cs : List Char) :
    decodedChars ((escapedChar c).toList ++ cs) = c :: decodedChars cs := by
  cases h : entity? c with
  | none =>
    have hne : c ≠ '&' := by
      rintro rfl
      cases h
    simp [escapedChar, h, decodedChars_of_ne hne]
  | some entity =>
    unfold entity? at h
    split at h
    case h_8 => cases h
    all_goals rfl

theorem decoded_escaped (text : String) : decoded (escaped text) = text := by
  have hchars : ∀ cs : List Char, decodedChars (cs.flatMap fun c => (escapedChar c).toList) = cs := by
    intro cs
    induction cs with
    | nil => rfl
    | cons c cs ih => rw [List.flatMap_cons, decodedChars_escapedChar, ih]
  rw [decoded, toList_escaped, hchars, String.ofList_toList]

/-! ## The loop over the bytes -/

/-- The entity for a byte that is a special character. -/
def byteEntity? (b : UInt8) : Option String :=
  entity? (Char.ofUInt8 b)

/-- The loop at the byte at `offset`, when the last special character ended at `start`.
A cut off the boundaries of characters ends it without a result. -/
def walkFrom (source : List Char) (start offset : Nat) : List UInt8 → Option (List String)
  | [] => do
    let rest ← Region.slice? ⟨start, byteLength source⟩ source
    return [String.ofList rest]
  | b :: bytes =>
    match byteEntity? b with
    | none => walkFrom source start (offset + 1) bytes
    | some entity => do
      let piece ← Region.slice? ⟨start, offset⟩ source
      let pieces ← walkFrom source (offset + 1) (offset + 1) bytes
      return String.ofList piece :: entity :: pieces

/-- The texts that are written one after the other to escape a text. -/
def walk (text : String) : Option (List String) :=
  walkFrom text.toList 0 0 text.toUTF8.data.toList

theorem toUTF8_toList (text : String) : text.toUTF8.data.toList = text.toList.flatMap String.utf8EncodeChar := by
  obtain ⟨cs, rfl⟩ : ∃ cs, text = String.ofList cs := ⟨text.toList, by simp⟩
  rw [String.toUTF8_eq_toByteArray, String.toByteArray_ofList, List.utf8Encode, List.toList_data_toByteArray,
    String.toList_ofList]

theorem toNat_lt_of_entity {c : Char} {entity : String} (h : entity? c = some entity) : c.toNat < 128 := by
  unfold entity? at h
  split at h
  case h_8 => cases h
  all_goals decide

theorem byteEntity?_of_ascii {c : Char} (h : c.toNat < 128) : byteEntity? (UInt8.ofNat c.toNat) = entity? c := by
  have hc : Char.ofUInt8 (UInt8.ofNat c.toNat) = c := by
    apply Char.toNat_inj.mp
    change (UInt8.ofNat c.toNat).toNat = c.toNat
    rw [UInt8.toNat_ofNat']
    omega
  rw [byteEntity?, hc]

theorem byteEntity?_of_le {b : UInt8} (h : 128 ≤ b.toNat) : byteEntity? b = none := by
  cases hb : byteEntity? b with
  | none => rfl
  | some entity =>
    have hlt : b.toNat < 128 := toNat_lt_of_entity hb
    omega

theorem utf8EncodeChar_of_ascii {c : Char} (h : c.toNat < 128) :
    String.utf8EncodeChar c = [UInt8.ofNat c.toNat] :=
  if_pos (show c.toNat ≤ 127 by omega)

theorem le_of_mem_utf8EncodeChar {c : Char} (h : 128 ≤ c.toNat) {b : UInt8} (hb : b ∈ String.utf8EncodeChar c) :
    128 ≤ b.toNat := by
  change 128 ≤ c.val.toNat at h
  have hbyte {n : Nat} (hle : 128 ≤ n) (hlt : n < 256) : 128 ≤ (UInt8.ofNat n).toNat := by
    rw [UInt8.toNat_ofNat']
    omega
  rw [String.utf8EncodeChar, if_neg (by omega)] at hb
  split at hb
  case isTrue =>
    simp only [List.mem_cons, List.not_mem_nil, or_false] at hb
    rcases hb with rfl | rfl <;> exact hbyte (by omega) (by omega)
  case isFalse =>
    split at hb
    case isTrue =>
      simp only [List.mem_cons, List.not_mem_nil, or_false] at hb
      rcases hb with rfl | rfl | rfl <;> exact hbyte (by omega) (by omega)
    case isFalse =>
      simp only [List.mem_cons, List.not_mem_nil, or_false] at hb
      rcases hb with rfl | rfl | rfl | rfl <;> exact hbyte (by omega) (by omega)

/-- No byte of another character is taken for a special character. -/
theorem byteEntity?_of_none {c : Char} (h : entity? c = none) :
    ∀ b ∈ String.utf8EncodeChar c, byteEntity? b = none := by
  intro b hb
  by_cases hascii : c.toNat < 128
  · rw [utf8EncodeChar_of_ascii hascii] at hb
    obtain rfl := List.mem_singleton.mp hb
    rw [byteEntity?_of_ascii hascii, h]
  · exact byteEntity?_of_le (le_of_mem_utf8EncodeChar (by omega) hb)

theorem walkFrom_skip (source : List Char) (start offset : Nat) {bytes : List UInt8}
    (h : ∀ b ∈ bytes, byteEntity? b = none) (more : List UInt8) :
    walkFrom source start offset (bytes ++ more) = walkFrom source start (offset + bytes.length) more := by
  induction bytes generalizing offset with
  | nil => rfl
  | cons b bytes ih =>
    obtain ⟨hb, hbytes⟩ := List.forall_mem_cons.mp h
    rw [List.cons_append, walkFrom, hb, ih _ hbytes, List.length_cons, Nat.add_right_comm, Nat.add_assoc]

/-- The loop in front of `cs`: the last special character ends `before`, and those seen since are
still to be cut. -/
theorem walkFrom_eq (before seen cs : List Char) :
    walkFrom (before ++ (seen.reverse ++ cs)) (byteLength before) (byteLength before + byteLength seen.reverse)
      (cs.flatMap String.utf8EncodeChar) = some (piecesFrom seen cs) := by
  induction cs generalizing before seen with
  | nil =>
    have hcut := Region.slice?_append before seen.reverse []
    rw [← byteLength_append] at hcut
    simp only [List.append_nil] at hcut ⊢
    simp [walkFrom, piecesFrom, hcut]
  | cons c cs ih =>
    cases h : entity? c with
    | none =>
      have hseen : byteLength (c :: seen).reverse = byteLength seen.reverse + (String.utf8EncodeChar c).length := by
        simp [byteLength_append, byteLength]
      have hsource : (c :: seen).reverse ++ cs = seen.reverse ++ c :: cs := by simp
      rw [List.flatMap_cons, walkFrom_skip _ _ _ (byteEntity?_of_none h), Nat.add_assoc, ← hseen, ← hsource, ih,
        piecesFrom, h]
    | some entity =>
      have hascii := toNat_lt_of_entity h
      have hcut := Region.slice?_append before seen.reverse (c :: cs)
      have hbyte : byteEntity? (UInt8.ofNat c.toNat) = some entity := by rw [byteEntity?_of_ascii hascii, h]
      have hsize : c.utf8Size = 1 := by
        rw [← String.length_utf8EncodeChar, utf8EncodeChar_of_ascii hascii, List.length_singleton]
      have hend : byteLength (before ++ (seen.reverse ++ [c])) = byteLength before + byteLength seen.reverse + 1 := by
        simp [byteLength_append, byteLength, hsize, Nat.add_assoc]
      have hrest := ih (before ++ (seen.reverse ++ [c])) []
      simp only [hend, List.reverse_nil, List.nil_append, byteLength, Nat.add_zero, List.append_assoc,
        List.singleton_append] at hrest
      rw [List.flatMap_cons, utf8EncodeChar_of_ascii hascii, List.singleton_append, walkFrom, hbyte]
      simp [hcut, hrest, piecesFrom, h]

theorem walk_eq (text : String) : walk text = some (escapedPieces text) := by
  rw [walk, toUTF8_toList]
  exact walkFrom_eq [] [] text.toList

/-! ## The pieces in front of one that is refused -/

theorem escaped_append (a b : String) : escaped (a ++ b) = escaped a ++ escaped b := by
  simp [escaped, String.join_append]

theorem escaped_singleton {c : Char} {entity : String} (h : entity? c = some entity) :
    escaped (String.singleton c) = entity := by
  simp [escaped, escapedChar, h]

theorem eq_empty_of_escaped {text : String} (h : escaped text = "") : text = "" := by
  rw [← decoded_escaped text, h]
  rfl

/-- The pieces in front of one that is not empty are the escaped form of some first
characters. -/
theorem exists_of_piecesFrom {seen cs : List Char} {before after : List String} {piece : String} (hpiece : piece ≠ "")
    (hseen : ∀ c ∈ seen, entity? c = none) (h : piecesFrom seen cs = before ++ piece :: after) :
    ∃ done rest, String.ofList (seen.reverse ++ cs) = done ++ rest ∧ rest ≠ "" ∧ String.join before = escaped done := by
  induction cs generalizing seen before with
  | nil =>
    obtain ⟨rfl, hlast, -⟩ : before = [] ∧ String.ofList seen.reverse = piece ∧ after = [] := by
      cases before <;> simp_all [piecesFrom]
    exact ⟨"", piece, by simp [hlast], hpiece, rfl⟩
  | cons c cs ih =>
    cases hc : entity? c with
    | none =>
      rw [piecesFrom, hc] at h
      obtain ⟨done, rest, htext, hrest, hjoin⟩ := ih (List.forall_mem_cons.mpr ⟨hc, hseen⟩) h
      exact ⟨done, rest, by simpa using htext, hrest, hjoin⟩
    | some entity =>
      have hplain : escaped (String.ofList seen.reverse) = String.ofList seen.reverse :=
        escaped_eq_self_iff.mpr fun d hd => hseen d (by simpa using hd)
      rw [piecesFrom, hc] at h
      -- the text in front of the character was refused, or its entity, or a later piece
      obtain _ | ⟨first, _ | ⟨second, before⟩⟩ := before
      case nil => exact ⟨"", String.ofList (seen.reverse ++ c :: cs), by simp, by simp, rfl⟩
      case cons.nil =>
        obtain ⟨hfirst, -⟩ := List.cons.inj h
        exact ⟨first, String.ofList (c :: cs), by simp [← hfirst], by simp, by simp [← hfirst, hplain]⟩
      case cons.cons =>
        obtain ⟨hfirst, h⟩ := List.cons.inj h
        obtain ⟨hsecond, h⟩ := List.cons.inj h
        obtain ⟨done, rest, htext, hrest, hjoin⟩ := ih (by simp) h
        have hcs : String.ofList cs = done ++ rest := htext
        refine ⟨first ++ String.singleton c ++ done, rest, ?_, hrest, ?_⟩
        · rw [String.ofList_append, String.ofList_cons, hcs, hfirst, String.append_assoc, String.append_assoc]
        · rw [String.join_cons, String.join_cons, hjoin, escaped_append, escaped_append, ← hfirst, hplain,
            escaped_singleton hc, ← hsecond, String.append_assoc]

end Text

/-! ## Writing pieces -/

namespace Sink

theorem accepts_append (sink : Sink) (a b : String) : sink.accepts (a ++ b) = (sink.append a).accepts b := by
  cases h : sink.capacity <;> simp [accepts, append, h, String.utf8ByteSize_append, Nat.add_assoc]

theorem append_append (sink : Sink) (a b : String) : (sink.append a).append b = sink.append (a ++ b) := by
  simp [append, String.append_assoc]

theorem accepts_of_append {sink : Sink} {a b : String} (h : sink.accepts (a ++ b)) : sink.accepts a := by
  cases hcapacity : sink.capacity with
  | none => simp [accepts, hcapacity]
  | some n =>
    simp only [accepts, hcapacity, String.utf8ByteSize_append, decide_eq_true_eq] at h ⊢
    omega

/-! The empty text is accepted by a sink within its capacity, and no text brings it over that. -/

theorem accepts_empty_ofCapacity (capacity : Option Nat) : (ofCapacity capacity).accepts "" := by
  cases capacity <;> simp [ofCapacity, accepts]

theorem accepts_empty_append {sink : Sink} {text : String} (h : sink.accepts text) :
    (sink.append text).accepts "" := by
  rwa [← accepts_append, String.append_empty]

theorem accepts_empty_write {sink : Sink} (h : sink.accepts "") (texts : List String) :
    (sink.write texts).1.accepts "" := by
  induction texts generalizing sink with
  | nil => exact h
  | cons text texts ih =>
    rw [write]
    split
    case isTrue htext => exact ih (accepts_empty_append htext)
    case isFalse => exact h

theorem write_of_accepts {sink : Sink} {texts : List String} (h : sink.accepts (String.join texts)) :
    sink.write texts = (sink.append (String.join texts), true) := by
  induction texts generalizing sink with
  | nil => simp [write, append]
  | cons text texts ih =>
    rw [String.join_cons] at h
    have htext := accepts_of_append h
    rw [accepts_append] at h
    rw [write, if_pos htext, ih h, append_append, String.join_cons]

/-- A sink with too little room stops before some text that is not empty. -/
theorem write_of_not_accepts {sink : Sink} {texts : List String} (hsink : sink.accepts "")
    (h : ¬ sink.accepts (String.join texts)) :
    ∃ before text after, texts = before ++ text :: after ∧ text ≠ "" ∧
      sink.write texts = (sink.append (String.join before), false) := by
  induction texts generalizing sink with
  | nil => exact absurd hsink h
  | cons text texts ih =>
    by_cases htext : sink.accepts text
    · rw [String.join_cons, accepts_append] at h
      obtain ⟨before, next, after, rfl, hnext, hwrite⟩ := ih (accepts_empty_append htext) h
      refine ⟨text :: before, next, after, rfl, hnext, ?_⟩
      rw [write, if_pos htext, hwrite, append_append, String.join_cons]
    · refine ⟨[], text, texts, rfl, ?_, ?_⟩
      · rintro rfl
        exact htext hsink
      · simp [write, htext, append]

end Sink

namespace Run

theorem deliver_writes (texts : List String) (sink : Sink) :
    (deliver sink (texts.map .write)).1 = (sink.write texts).1 ∧
      (deliver sink (texts.map .write)).2.2 = (sink.write texts).2 := by
  induction texts generalizing sink with
  | nil => exact ⟨rfl, rfl⟩
  | cons text texts ih =>
    rw [List.map_cons, deliver, Sink.write]
    split
    · exact ih (sink.append text)
    · exact ⟨rfl, rfl⟩

/-- A run that only writes, into a sink. -/
theorem into_writes {α : Type} (texts : List String) (outcome : Except Diagnostic α) (sink : Sink) :
    ((⟨texts.map .write, outcome⟩ : Run α).into sink).1 = (sink.write texts).1 ∧
      ((⟨texts.map .write, outcome⟩ : Run α).into sink).2.outcome =
        if (sink.write texts).2 then outcome else .error .writeFailure := by
  obtain ⟨hsink, htaken⟩ := deliver_writes texts sink
  refine ⟨hsink, ?_⟩
  rw [← htaken]
  rfl

/-- A text escaped into a sink within its capacity. The loop over its bytes makes all its
cuts; all of the escaped text is taken if it fits, and else that of some first characters. -/
theorem into_writeEscaped (text : String) {sink : Sink} (hsink : sink.accepts "") :
    let result := (writeEscaped text).into sink
    (Text.walk text).map sink.write = some (result.1, result.2.outcome.isOk) ∧
      (result.2.outcome = .ok () ↔ sink.accepts (Text.escaped text)) ∧
      (result.2.outcome = .ok () →
        result.1 = sink.append (Text.escaped text) ∧ Text.decoded (Text.escaped text) = text) ∧
      (result.2.outcome ≠ .ok () →
        result.2.outcome = .error .writeFailure ∧
          ∃ done rest, text = done ++ rest ∧ result.1 = sink.append (Text.escaped done) ∧
            Text.escaped text = Text.escaped done ++ Text.escaped rest ∧ Text.escaped rest ≠ "") := by
  intro result
  obtain ⟨htext, houtcome⟩ := into_writes (Text.escapedPieces text) (.ok ()) sink
  change result.1 = _ at htext
  change result.2.outcome = _ at houtcome
  have hjoin := Text.join_escapedPieces text
  rw [Text.walk_eq, Option.map_some]
  by_cases haccepts : sink.accepts (Text.escaped text)
  case pos =>
    have hwrite := Sink.write_of_accepts (hjoin ▸ haccepts)
    rw [hwrite] at htext houtcome ⊢
    rw [htext, houtcome, hjoin]
    exact ⟨rfl, iff_of_true rfl haccepts, fun _ => ⟨rfl, Text.decoded_escaped text⟩, fun hfailed => absurd rfl hfailed⟩
  case neg =>
    rw [← hjoin] at haccepts
    obtain ⟨before, piece, after, hpieces, hpiece, hwrite⟩ := Sink.write_of_not_accepts hsink haccepts
    rw [hjoin] at haccepts
    obtain ⟨done, rest, hparts, hrest, hbefore⟩ := Text.exists_of_piecesFrom hpiece (by simp) hpieces
    rw [hwrite, hbefore] at htext houtcome ⊢
    rw [htext, houtcome]
    refine ⟨rfl, iff_of_false nofun haccepts, nofun, fun _ => ⟨rfl, done, rest, by simpa using hparts, rfl, ?_, ?_⟩⟩
    · rw [← Text.escaped_append, ← hparts]
      simp
    · exact fun hempty => hrest (Text.eq_empty_of_escaped hempty)

/-- Four characters that take eleven bytes when escaped, with room for them and without. -/
theorem into_writeEscaped_room :
    let room : Sink := ⟨"", some 11⟩
    let less : Sink := ⟨"", some 10⟩
    room.accepts "" ∧ less.accepts "" ∧
      ((writeEscaped "é<b>").into room).2.outcome = .ok () ∧
      ((writeEscaped "é<b>").into room).1 = room.append "é&lt;b&gt;" ∧
      ((writeEscaped "é<b>").into less).2.outcome = .error .writeFailure ∧
      ((writeEscaped "é<b>").into less).1 = less.append "é&lt;b" := by
  intro room less
  have hroom : room.accepts "" := by decide
  have hless : less.accepts "" := by decide
  obtain ⟨-, htaken, hwhole, -⟩ := into_writeEscaped "é<b>" hroom
  obtain ⟨-, hfull, -, hpart⟩ := into_writeEscaped "é<b>" hless
  have hok := htaken.mpr (by decide)
  have hfailed : ((writeEscaped "é<b>").into less).2.outcome ≠ .ok () := fun h => absurd (hfull.mp h) (by decide)
  exact ⟨hroom, hless, hok, (hwhole hok).1, (hpart hfailed).1, rfl⟩

end Run

end Curly
