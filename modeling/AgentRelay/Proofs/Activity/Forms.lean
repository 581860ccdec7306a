import AgentRelay.Activity.Id
import AgentRelay.Proofs.Hex
import AgentRelay.Proofs.Job.Body

/-!
# The forms of an identifier

An identifier is written in four forms, and in each of them its letters may be of either case. Nothing else is
read as an identifier.

* `ActivityId.forms` are the four forms, in small letters.
* `grouped` and `ungrouped` put the hyphens between the digits and take them out again.
* `ofBytes?_eq_some_iff` and `parse_eq_ok_iff`: what is read as an identifier.
-/

namespace AgentRelay

namespace ActivityId

/-- The forms that an identifier is written in: with hyphens, without them, in braces, and behind the name
of its kind. -/
def forms (id : ActivityId) : List String :=
  [id.text, String.ofList id.digits, "\x7b" ++ id.text ++ "\x7d", urn ++ id.text]

/-! ### Groups -/

section Groups

variable {α β : Type} {mark : α} {ds : List α}

/-- Groups of 8, 4, 4, 4 and 12 with a mark between them. -/
def grouped (mark : α) (ds : List α) : List α :=
  ds.take 8 ++ mark :: (ds.drop 8).take 4 ++ mark :: (ds.drop 12).take 4 ++
    mark :: (ds.drop 16).take 4 ++ mark :: ds.drop 20

/-- The groups without the marks. -/
def ungrouped (ds : List α) : List α :=
  ds.take 8 ++ (ds.drop 9).take 4 ++ (ds.drop 14).take 4 ++ (ds.drop 19).take 4 ++ ds.drop 24

theorem map_grouped (f : α → β) (mark : α) (ds : List α) :
    (grouped mark ds).map f = grouped (f mark) (ds.map f) := by
  simp [grouped, List.map_take, List.map_drop]

theorem map_ungrouped (f : α → β) (ds : List α) : (ungrouped ds).map f = ungrouped (ds.map f) := by
  simp [ungrouped, List.map_take, List.map_drop]

theorem length_grouped (h : ds.length = 32) : (grouped mark ds).length = 36 := by
  simp [grouped, h]

theorem take_drop_append (ds : List α) (i n : Nat) : (ds.drop i).take n ++ ds.drop (i + n) = ds.drop i := by
  rw [← List.drop_drop, List.take_append_drop]

/-- What is behind a mark. -/
theorem drop_of_mark {i : Nat} (h : ds[i]? = some mark) : ds.drop i = mark :: ds.drop (i + 1) := by
  rw [List.drop_eq_getElem?_toList_append, h]
  rfl

/-- The groups in a row. -/
theorem append_groups (ds : List α) :
    ds.take 8 ++ ((ds.drop 8).take 4 ++ ((ds.drop 12).take 4 ++ ((ds.drop 16).take 4 ++ ds.drop 20))) = ds := by
  rw [take_drop_append ds 16 4, take_drop_append ds 12 4, take_drop_append ds 8 4, List.take_append_drop]

theorem ungrouped_grouped (h : ds.length = 32) : ungrouped (grouped mark ds) = ds := by
  have hgroups := append_groups ds
  simpa [ungrouped, grouped, List.drop_append, List.drop_take, h] using hgroups

theorem grouped_ungrouped (h : ds.length = 36) (h8 : ds[8]? = some mark) (h13 : ds[13]? = some mark)
    (h18 : ds[18]? = some mark) (h23 : ds[23]? = some mark) : grouped mark (ungrouped ds) = ds := by
  have hgroups : grouped mark (ungrouped ds) =
      ds.take 8 ++ (mark :: ((ds.drop 9).take 4 ++ (mark :: ((ds.drop 14).take 4 ++
        (mark :: ((ds.drop 19).take 4 ++ (mark :: ds.drop 24))))))) := by
    simp [ungrouped, grouped, List.drop_append, List.drop_take, h]
  rw [hgroups, ← drop_of_mark h23, take_drop_append ds 19 4, ← drop_of_mark h18, take_drop_append ds 14 4,
    ← drop_of_mark h13, take_drop_append ds 9 4, ← drop_of_mark h8, List.take_append_drop]

/-- The marks are found at their places. -/
theorem getElem?_grouped (h : ds.length = 32) : (grouped mark ds)[8]? = some mark ∧
    (grouped mark ds)[13]? = some mark ∧ (grouped mark ds)[18]? = some mark ∧
      (grouped mark ds)[23]? = some mark := by
  simp [grouped, h]

end Groups

theorem hyphenated_eq (ds : List Char) : hyphenated ds = grouped '-' ds := rfl

/-! ### Bytes -/

variable {id : ActivityId} {b : Bytes}

/-- The digits of an identifier as bytes. -/
def digitBytes (id : ActivityId) : Bytes := id.digits.map Bytes.ascii

theorem digits_eq (id : ActivityId) : id.digits = Bytes.hexChars id.bytes.toList := rfl

theorem length_digits (id : ActivityId) : id.digits.length = 32 := by
  rw [digits_eq, Bytes.length_hexChars, Vector.length_toList]

theorem length_digitBytes (id : ActivityId) : id.digitBytes.length = 32 := by
  rw [digitBytes, List.length_map, length_digits]

/-- No letter is written as a hyphen or a brace. -/
theorem toLower_eq_iff {x y : UInt8} (h : y ∈ ([45, 123, 125] : Bytes)) : Bytes.toLower x = y ↔ x = y := by
  have hall : ∀ x, ∀ y ∈ ([45, 123, 125] : Bytes), Bytes.toLower x = y ↔ x = y :=
    Bytes.forall_byte (by decide +kernel)
  exact hall x y h

theorem ofDigits?_eq_some_iff : ofDigits? b = some id ↔ b.map Bytes.toLower = id.digitBytes := by
  rw [digitBytes, digits_eq, ← Bytes.ofHexDigits?_eq_some_iff, ofDigits?]
  constructor
  · intro h
    obtain ⟨bytes, hbytes, h⟩ := Option.bind_eq_some_iff.1 h
    split at h
    · cases h
      simpa using hbytes
    · cases h
  · intro h
    rw [h, Option.bind_some, dif_pos (by simp)]
    rfl

/-- The bytes have the length and the hyphens of groups. -/
def HasMarks (b : Bytes) : Prop :=
  b.length = 36 ∧ b[8]? = some 45 ∧ b[13]? = some 45 ∧ b[18]? = some 45 ∧ b[23]? = some 45

theorem hasMarks_map_toLower : HasMarks (b.map Bytes.toLower) ↔ HasMarks b := by
  have hmark (i : Nat) : (b.map Bytes.toLower)[i]? = some 45 ↔ b[i]? = some 45 := by
    cases h : b[i]? <;> simp [h, toLower_eq_iff]
  rw [HasMarks, HasMarks, List.length_map, hmark, hmark, hmark, hmark]

theorem ofHyphenated?_of_hasMarks (h : HasMarks b) : ofHyphenated? b = ofDigits? (ungrouped b) := by
  obtain ⟨hlength, h8, h13, h18, h23⟩ := h
  simp only [ofHyphenated?, List.getD_eq_getElem?_getD, hlength, h8, h13, h18, h23, Option.getD_some,
    beq_self_eq_true, Bool.and_self, if_true, ungrouped]

theorem hasMarks_of_ofHyphenated? (h : ofHyphenated? b = some id) : HasMarks b := by
  have hmark (i : Nat) (hi : b.getD i 0 = 45) : b[i]? = some 45 := by
    rw [List.getD_eq_getElem?_getD] at hi
    cases hb : b[i]? <;> simp_all
  unfold ofHyphenated? at h
  split at h
  · rename_i hmarks
    simp only [Bool.and_eq_true, beq_iff_eq] at hmarks
    obtain ⟨⟨⟨⟨hlength, h8⟩, h13⟩, h18⟩, h23⟩ := hmarks
    exact ⟨hlength, hmark _ h8, hmark _ h13, hmark _ h18, hmark _ h23⟩
  · cases h

theorem ofHyphenated?_eq_some_iff :
    ofHyphenated? b = some id ↔ b.map Bytes.toLower = grouped 45 id.digitBytes := by
  constructor
  · intro h
    have hmarks := hasMarks_of_ofHyphenated? h
    rw [ofHyphenated?_of_hasMarks hmarks, ofDigits?_eq_some_iff, map_ungrouped] at h
    obtain ⟨hlength, h8, h13, h18, h23⟩ := hasMarks_map_toLower.2 hmarks
    rw [← h, grouped_ungrouped hlength h8 h13 h18 h23]
  · intro h
    have hmarks : HasMarks (b.map Bytes.toLower) := by
      rw [h]
      exact ⟨length_grouped id.length_digitBytes, getElem?_grouped id.length_digitBytes⟩
    rw [ofHyphenated?_of_hasMarks (hasMarks_map_toLower.1 hmarks), ofDigits?_eq_some_iff, map_ungrouped, h,
      ungrouped_grouped id.length_digitBytes]

/-! ### Forms -/

/-- What stands in braces. -/
theorem exists_of_braced (hlength : b.length = 38) (hhead : b.head? = some 123) (hlast : b.getLast? = some 125) :
    ∃ inner, b = 123 :: inner ++ [125] := by
  cases b with
  | nil => cases hhead
  | cons x b =>
    obtain rfl : x = 123 := Option.some.inj hhead
    obtain rfl | ⟨inner, y, rfl⟩ := b.eq_nil_or_concat'
    · cases hlength
    · rw [← List.cons_append, List.getLast?_concat] at hlast
      obtain rfl : y = 125 := Option.some.inj hlast
      exact ⟨inner, rfl⟩

theorem map_braced (inner : Bytes) : (123 :: inner ++ [125] : Bytes).map Bytes.toLower =
    123 :: inner.map Bytes.toLower ++ [125] := by
  simp [Bytes.toLower]

/-- What stands in braces once its letters are small, stood in braces before. -/
theorem exists_of_map_braced {g : Bytes} (h : b.map Bytes.toLower = 123 :: g ++ [125]) :
    ∃ inner, b = 123 :: inner ++ [125] ∧ inner.map Bytes.toLower = g := by
  obtain ⟨front, last, rfl, hfront, hlast⟩ := List.map_eq_append_iff.1 h
  obtain ⟨x, inner, rfl, hx, hinner⟩ := List.map_eq_cons_iff.1 hfront
  obtain ⟨y, rest, rfl, hy, hrest⟩ := List.map_eq_cons_iff.1 hlast
  obtain rfl := List.map_eq_nil_iff.1 hrest
  obtain rfl := (toLower_eq_iff (by simp)).1 hx
  obtain rfl := (toLower_eq_iff (by simp)).1 hy
  exact ⟨inner, rfl, hinner⟩

/-- The forms of an identifier as bytes. -/
def formBytes (id : ActivityId) : List Bytes :=
  [grouped 45 id.digitBytes, id.digitBytes, 123 :: grouped 45 id.digitBytes ++ [125],
    Bytes.utf8 urn ++ grouped 45 id.digitBytes]

theorem mem_formBytes_of_ofBytes? (h : ofBytes? b = some id) : b.map Bytes.toLower ∈ id.formBytes := by
  unfold ofBytes? at h
  split_ifs at h with h32 h36 h38 h45
  · exact .tail _ (ofDigits?_eq_some_iff.1 h ▸ .head _)
  · exact ofHyphenated?_eq_some_iff.1 h ▸ .head _
  · simp only [Bool.and_eq_true, beq_iff_eq] at h38
    obtain ⟨inner, rfl⟩ := exists_of_braced h38.1.1 h38.1.2 h38.2
    rw [List.cons_append, List.drop_one, List.tail_cons, List.dropLast_concat] at h
    rw [map_braced, ofHyphenated?_eq_some_iff.1 h]
    exact .tail _ (.tail _ (.head _))
  · simp only [Bool.and_eq_true, beq_iff_eq] at h45
    have hurn : (b.take 9).map Bytes.toLower = Bytes.utf8 urn := eq_of_beq h45.2
    rw [← List.take_append_drop 9 b, List.map_append, hurn, ofHyphenated?_eq_some_iff.1 h]
    exact .tail _ (.tail _ (.tail _ (.head _)))

theorem ofBytes?_of_mem_formBytes (h : b.map Bytes.toLower ∈ id.formBytes) : ofBytes? b = some id := by
  have hgrouped : (grouped 45 id.digitBytes).length = 36 := length_grouped id.length_digitBytes
  simp only [formBytes, List.mem_cons, List.not_mem_nil, or_false] at h
  unfold ofBytes?
  rcases h with h | h | h | h
  · have hb : b.length = 36 := by rw [← List.length_map, h, hgrouped]
    simp only [hb]
    exact ofHyphenated?_eq_some_iff.2 h
  · have hb : b.length = 32 := by rw [← List.length_map, h, length_digitBytes]
    simp only [hb]
    exact ofDigits?_eq_some_iff.2 h
  · obtain ⟨inner, rfl, hinner⟩ := exists_of_map_braced h
    have hb : (123 :: inner ++ [125]).length = 38 := by
      rw [List.length_append, List.length_cons, ← List.length_map, hinner, hgrouped]
      rfl
    have hhead : (123 :: inner ++ [125]).head? = some 123 := rfl
    have hlast : (123 :: inner ++ [125]).getLast? = some 125 := List.getLast?_concat
    have hbetween : ((123 :: inner ++ [125]).drop 1).dropLast = inner := List.dropLast_concat
    simp only [hb, hhead, hlast, hbetween]
    exact ofHyphenated?_eq_some_iff.2 hinner
  · have hb : b.length = 45 := by
      rw [← List.length_map, h, List.length_append, hgrouped]
      rfl
    have hfront : (b.take 9).map Bytes.toLower = Bytes.utf8 urn := by
      rw [List.map_take, h]
      rfl
    have hback : (b.drop 9).map Bytes.toLower = grouped 45 id.digitBytes := by
      rw [List.map_drop, h]
      rfl
    have hurn : isUrn b = true := beq_iff_eq.2 hfront
    simp only [hb, hurn]
    exact ofHyphenated?_eq_some_iff.2 hback

theorem ofBytes?_eq_some_iff : ofBytes? b = some id ↔ b.map Bytes.toLower ∈ id.formBytes :=
  ⟨mem_formBytes_of_ofBytes?, ofBytes?_of_mem_formBytes⟩

/-! ### Texts -/

/-- The letters of a text become small byte by byte. -/
theorem utf8_toLower (s : String) : Bytes.utf8 s.toLower = (Bytes.utf8 s).map Bytes.toLower := by
  have htext : s.toLower = String.ofList (s.toList.map Char.toLower) := by
    rw [← String.toList_inj, String.toList_ofList]
    exact String.toList_map
  have hlow : ∀ k < 128, (Char.ofNat k).toLower.toNat < 128 ∧
      Bytes.ascii (Char.ofNat k).toLower = Bytes.toLower (Bytes.ascii (Char.ofNat k)) := by decide
  rw [htext]
  refine Bytes.utf8_map (fun c hc => ?_) (fun c hc => ?_) (fun x hx => ?_) s
  · simpa using hlow c.toNat hc
  · refine dif_neg fun h => ?_
    have hletter : c.toNat ≤ 90 := UInt32.le_iff_toNat_le.1 h.2
    omega
  · have hbyte : 128 ≤ x.toNat := UInt8.le_iff_toNat_le.1 hx
    refine if_neg fun h => ?_
    have hletter : x.toNat ≤ 90 := UInt8.le_iff_toNat_le.1 (of_decide_eq_true (Bool.and_eq_true_iff.1 h).2)
    omega

theorem utf8_injective {s t : String} (h : Bytes.utf8 s = Bytes.utf8 t) : s = t := by
  simpa using congrArg Bytes.ofUtf8? h

theorem mem_of_mem_grouped {α : Type} {mark x : α} {ds : List α} (h : x ∈ grouped mark ds) :
    x = mark ∨ x ∈ ds := by
  simp only [grouped, List.mem_append, List.mem_cons] at h
  have htake {l : List α} {n : Nat} : x ∈ l.take n → x ∈ l := List.mem_of_mem_take
  have hdrop {n : Nat} : x ∈ ds.drop n → x ∈ ds := List.mem_of_mem_drop
  grind

theorem utf8_digits (id : ActivityId) : Bytes.utf8 (String.ofList id.digits) = id.digitBytes := by
  refine Bytes.utf8_ofList fun c hc => ?_
  exact Bytes.toNat_lt_of_mem_alphabet (Bytes.mem_alphabet_of_mem_hexChars hc)

theorem utf8_text (id : ActivityId) : Bytes.utf8 id.text = grouped 45 id.digitBytes := by
  rw [text, hyphenated_eq, Bytes.utf8_ofList, map_grouped]
  · rfl
  · intro c hc
    rcases mem_of_mem_grouped hc with rfl | hdigit
    · decide
    · exact Bytes.toNat_lt_of_mem_alphabet (Bytes.mem_alphabet_of_mem_hexChars hdigit)

theorem map_utf8_forms (id : ActivityId) : id.forms.map Bytes.utf8 = id.formBytes := by
  have hopen : Bytes.utf8 "\x7b" = [123] := rfl
  have hclose : Bytes.utf8 "\x7d" = [125] := rfl
  simp only [forms, formBytes, List.map_cons, List.map_nil, Bytes.utf8_append, utf8_text, utf8_digits, hopen,
    hclose, List.cons_append, List.nil_append]

/-- A text is read as an identifier when it is one of its forms, in letters of either case. -/
theorem parse_eq_ok_iff {s : String} : parse s = .ok id ↔ s.toLower ∈ id.forms := by
  have hparse : parse s = .ok id ↔ ofBytes? (Bytes.utf8 s) = some id := by
    unfold parse ofText?
    cases ofBytes? (Bytes.utf8 s) <;> simp
  rw [hparse, ofBytes?_eq_some_iff, ← utf8_toLower, ← map_utf8_forms, List.mem_map]
  constructor
  · rintro ⟨form, hform, h⟩
    exact utf8_injective h ▸ hform
  · intro h
    exact ⟨_, h, rfl⟩

end ActivityId
end AgentRelay
