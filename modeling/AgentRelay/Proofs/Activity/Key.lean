import AgentRelay.Proofs.Activity.Forms
import AgentRelay.Proofs.Text.Trim

/-!
# Identifiers and keys

The identifier of a key is the hash of the trimmed key with the version and the variant of random identifiers
stamped on it. Six of its 128 bits are taken by the stamp; all the others tell one hash from another.

* `bit?` is a bit of a byte string, `IsStamped` are the places of the stamp.
* `Spells`: the text is the written form of a stamped hash.
* `ofRandom_inj`: when two hashes make one identifier.
* `ofKey_spells` puts together what the identifier of a key is and how it is read.
-/

namespace AgentRelay

namespace ActivityId

variable {hash hash' : Bytes} {i : Nat}

/-- The hash that the identifier of a key is made of. -/
def keyHash (key : String) : Bytes := Digest.Sha256.digest (Bytes.utf8 (Text.trim key))

/-- A bit of a byte string; the highest bit of its first byte comes first. -/
def bit? (b : Bytes) (i : Nat) : Option Bool := b[i / 8]?.map fun x => x.toNat.testBit (7 - i % 8)

/-- A bit that hexadecimal digits write. -/
def digitBit? (ds : List Char) (i : Nat) : Option Bool :=
  ds[i / 4]?.map fun c => (Bytes.alphabet.idxOf c).testBit (3 - i % 4)

/-- The places of the version and of the variant. -/
def IsStamped (i : Nat) : Prop := 48 ≤ i ∧ i < 52 ∨ 64 ≤ i ∧ i < 66

instance : DecidablePred IsStamped := fun _ => inferInstanceAs (Decidable (_ ∨ _))

/-- The groups of digits in a text. -/
def groups (t : String) : List (List Char) := t.toList.splitOn '-'

/-- The text is the written form of an identifier that is made of the hash. -/
structure Spells (t : String) (hash : Bytes) : Prop where
  length : t.length = 36
  groups : (groups t).map List.length = [8, 4, 4, 4, 12]
  digits : ∀ c ∈ (ActivityId.groups t).flatten, c ∈ "0123456789abcdef".toList
  version : (ActivityId.groups t).flatten[12]? = some '4'
  variant : ∃ c ∈ (ActivityId.groups t).flatten[16]?, c ∈ "89ab".toList
  bits : ∀ i < 128, ¬ IsStamped i →
    ∃ x, digitBit? (ActivityId.groups t).flatten i = some x ∧ bit? hash i = some x

/-! ### Hashes -/

theorem length_bigEndian (n v : Nat) : (Digest.Sha256.bigEndian n v).length = n := by
  simp [Digest.Sha256.bigEndian]

theorem length_digest (message : Bytes) : (Digest.Sha256.digest message).length = 32 := by
  simp [Digest.Sha256.digest, length_bigEndian]

theorem exists_bit? (h : i < 8 * hash.length) : ∃ x, bit? hash i = some x := by
  have hbyte : i / 8 < hash.length := by omega
  exact ⟨_, by rw [bit?, List.getElem?_eq_getElem hbyte, Option.map_some]⟩

/-- Digits write the bits of the bytes that they are the digits of. -/
theorem digitBit?_hexChars (b : Bytes) (i : Nat) : digitBit? (Bytes.hexChars b) i = bit? b i := by
  rw [digitBit?, Bytes.getElem?_hexChars, Option.map_map, bit?, show i / 4 / 2 = i / 8 by omega]
  refine Option.map_congr fun x _ => ?_
  have hbyte := x.toNat_lt
  rw [Function.comp_apply, Bytes.idxOf_hexDigit _ (by split <;> omega)]
  split
  · have hbit : 7 - i % 8 = 3 - i % 4 + 4 := by omega
    rw [hbit, show (16 : Nat) = 2 ^ 4 from rfl, Nat.testBit_div_two_pow]
  · have hbit : 7 - i % 8 = 3 - i % 4 := by omega
    rw [hbit, show (16 : Nat) = 2 ^ 4 from rfl, Nat.testBit_mod_two_pow, decide_eq_true (by omega), Bool.true_and]

/-! ### The stamp -/

/-- The stamp takes its own bits from no byte, and keeps the others. -/
theorem testBit_stamp (k : Nat) (x : UInt8) {j : Nat} (hj : j < 8) : (stamp k x).toNat.testBit j =
    if IsStamped (8 * k + (7 - j)) then (stamp k 0).toNat.testBit j else x.toNat.testBit j := by
  by_cases h6 : k = 6
  · have hall : ∀ x, ∀ j < 8, (stamp 6 x).toNat.testBit j =
        if IsStamped (8 * 6 + (7 - j)) then (stamp 6 0).toNat.testBit j else x.toNat.testBit j :=
      Bytes.forall_byte (by decide +kernel)
    exact h6 ▸ hall x j hj
  by_cases h8 : k = 8
  · have hall : ∀ x, ∀ j < 8, (stamp 8 x).toNat.testBit j =
        if IsStamped (8 * 8 + (7 - j)) then (stamp 8 0).toNat.testBit j else x.toNat.testBit j :=
      Bytes.forall_byte (by decide +kernel)
    exact h8 ▸ hall x j hj
  · have hplain : ¬ IsStamped (8 * k + (7 - j)) := by
      unfold IsStamped
      omega
    simp [stamp, h6, h8, hplain]

theorem getElem?_ofRandom {k : Nat} (hk : k < 16) (hash : Bytes) :
    (ofRandom hash).bytes.toList[k]? = some (stamp k (hash.getD k 0)) := by
  simp [ofRandom, hk]

/-- The bits of an identifier are those of its hash, but for the stamp. -/
theorem bit?_ofRandom (hi : i < 128) (hlength : 16 ≤ hash.length) : bit? (ofRandom hash).bytes.toList i =
    if IsStamped i then bit? (ofRandom []).bytes.toList i else bit? hash i := by
  have hk : i / 8 < 16 := by omega
  have hplace : 8 * (i / 8) + (7 - (7 - i % 8)) = i := by omega
  have hbyte : hash[i / 8]? = some (hash.getD (i / 8) 0) := by
    rw [List.getD_eq_getElem?_getD, List.getElem?_eq_getElem (by omega), Option.getD_some]
  rw [bit?, bit?, bit?, getElem?_ofRandom hk, getElem?_ofRandom hk, hbyte, Option.map_some, Option.map_some,
    Option.map_some, testBit_stamp _ _ (by omega), hplace]
  split_ifs <;> rfl

/-- Identifiers with the same bits are the same. -/
theorem eq_of_bit? {id id' : ActivityId} (h : ∀ i < 128, bit? id.bytes.toList i = bit? id'.bytes.toList i) :
    id = id' := by
  have hbytes : id.bytes = id'.bytes := by
    refine Vector.ext fun k hk => UInt8.toNat_inj.1 (Nat.eq_of_testBit_eq fun j => ?_)
    by_cases hj : j < 8
    · have hbit := h (8 * k + (7 - j)) (by omega)
      have hbyte : (8 * k + (7 - j)) / 8 = k := by omega
      have hplace : 7 - (8 * k + (7 - j)) % 8 = j := by omega
      rw [bit?, bit?, hbyte, hplace] at hbit
      simpa [hk] using hbit
    · have hhigh (x : UInt8) : x.toNat.testBit j = false := by
        refine Nat.testBit_lt_two_pow (Nat.lt_of_lt_of_le x.toNat_lt ?_)
        exact Nat.pow_le_pow_right (by decide) (Nat.le_of_not_lt hj)
      rw [hhigh, hhigh]
  cases id
  cases id'
  exact congrArg mk hbytes

/-- Two hashes make one identifier when they differ in the bits of the stamp alone. -/
theorem ofRandom_inj (hlength : 16 ≤ hash.length) (hlength' : 16 ≤ hash'.length) :
    ofRandom hash = ofRandom hash' ↔ ∀ i < 128, ¬ IsStamped i → bit? hash i = bit? hash' i := by
  constructor
  · intro h i hi hplain
    have hbit := congrArg (fun id : ActivityId => bit? id.bytes.toList i) h
    simpa only [bit?_ofRandom hi hlength, bit?_ofRandom hi hlength', if_neg hplain] using hbit
  · intro h
    refine eq_of_bit? fun i hi => ?_
    rw [bit?_ofRandom hi hlength, bit?_ofRandom hi hlength']
    split_ifs with hstamped
    · rfl
    · exact h i hi hstamped

/-! ### The written form -/

theorem hyphen_notMem_digits (id : ActivityId) : '-' ∉ id.digits := by
  intro h
  have hdigit := Bytes.mem_alphabet_of_mem_hexChars h
  revert hdigit
  decide

theorem groups_text (id : ActivityId) : groups id.text =
    [id.digits.take 8, (id.digits.drop 8).take 4, (id.digits.drop 12).take 4, (id.digits.drop 16).take 4,
      id.digits.drop 20] := by
  have htext : hyphenated id.digits = ['-'].intercalate
      [id.digits.take 8, (id.digits.drop 8).take 4, (id.digits.drop 12).take 4, (id.digits.drop 16).take 4,
        id.digits.drop 20] := by
    simp [hyphenated, List.intercalate]
  rw [groups, text, String.toList_ofList, htext, List.splitOn_intercalate]
  · intro group hgroup hmem
    refine id.hyphen_notMem_digits ?_
    simp only [List.mem_cons, List.not_mem_nil, or_false] at hgroup
    rcases hgroup with rfl | rfl | rfl | rfl | rfl
    · exact List.mem_of_mem_take hmem
    · exact List.mem_of_mem_drop (List.mem_of_mem_take hmem)
    · exact List.mem_of_mem_drop (List.mem_of_mem_take hmem)
    · exact List.mem_of_mem_drop (List.mem_of_mem_take hmem)
    · exact List.mem_of_mem_drop hmem
  · exact List.cons_ne_nil _ _

theorem flatten_groups_text (id : ActivityId) : (groups id.text).flatten = id.digits := by
  rw [groups_text]
  simpa using append_groups id.digits

theorem getElem?_digits_ofRandom (hash : Bytes) {k : Nat} (hk : k < 16) :
    (ofRandom hash).digits[2 * k]? = some (Bytes.hexDigit ((stamp k (hash.getD k 0)).toNat / 16)) := by
  rw [digits_eq, Bytes.getElem?_hexChars, show 2 * k / 2 = k by omega, getElem?_ofRandom hk, Option.map_some,
    if_pos (by omega)]

/-- The written form shows the stamp and the bits of the hash. -/
theorem spells_ofRandom (hlength : 16 ≤ hash.length) : Spells (ofRandom hash).text hash where
  length := by
    rw [text, hyphenated_eq, String.length_ofList, length_grouped (length_digits _)]
  groups := by
    rw [groups_text]
    simp [length_digits]
  digits := by
    rw [flatten_groups_text]
    exact fun c => Bytes.mem_alphabet_of_mem_hexChars
  version := by
    have hversion : ∀ x, Bytes.hexDigit ((stamp 6 x).toNat / 16) = '4' := Bytes.forall_byte (by decide +kernel)
    rw [flatten_groups_text, getElem?_digits_ofRandom hash (show 6 < 16 by decide), hversion]
  variant := by
    have hvariant : ∀ x, Bytes.hexDigit ((stamp 8 x).toNat / 16) ∈ "89ab".toList :=
      Bytes.forall_byte (by decide +kernel)
    rw [flatten_groups_text, getElem?_digits_ofRandom hash (show 8 < 16 by decide)]
    exact ⟨_, rfl, hvariant _⟩
  bits i hi hplain := by
    obtain ⟨x, hx⟩ := exists_bit? (show i < 8 * hash.length by omega)
    refine ⟨x, ?_, hx⟩
    rw [flatten_groups_text, digits_eq, digitBit?_hexChars, bit?_ofRandom hi hlength, if_neg hplain, hx]

/-! ### Keys -/

theorem le_length_keyHash (key : String) : 16 ≤ (keyHash key).length := by
  rw [keyHash, length_digest]
  decide

/-- **Identifiers are named by their keys.** The identifier of a key is written as a random identifier whose
bits are those of the hash of the trimmed key. Two keys have one identifier just when their hashes agree in
these bits, and so whenever they differ in white space around them alone. Every identifier is read from its
four forms, in letters of either case, and from nothing else. -/
theorem ofKey_spells (key key' s : String) (id : ActivityId) :
    Spells (ofKey key).text (keyHash key) ∧
    (ofKey key = ofKey key' ↔ ∀ i < 128, ¬ IsStamped i → bit? (keyHash key) i = bit? (keyHash key') i) ∧
    (Text.trim key = Text.trim key' → ofKey key = ofKey key') ∧
    (parse s = .ok id ↔ s.toLower ∈ id.forms) := by
  refine ⟨spells_ofRandom (le_length_keyHash key), ofRandom_inj (le_length_keyHash key) (le_length_keyHash key'),
    fun h => ?_, parse_eq_ok_iff⟩
  rw [ofKey, ofKey, h]

/-- An identifier with letters among its digits. -/
def someId : ActivityId :=
  ⟨#v[0xef, 0x8a, 0xbc, 0xb2, 0x40, 0x2b, 0x48, 0xe7, 0x99, 0xe0, 0x46, 0x96, 0x99, 0x38, 0xc5, 0xff]⟩

theorem ofKey_spells_spaced : Text.trim " k\n" = Text.trim "k" ∧ ofKey " k\n" = ofKey "k" ∧
    "URN:uuid:EF8ABCB2-402B-48e7-99e0-46969938C5FF".toLower ∈ someId.forms ∧
    parse "URN:uuid:EF8ABCB2-402B-48e7-99e0-46969938C5FF" = .ok someId := by
  have htrim : Text.trim " k\n" = Text.trim "k" := by decide +kernel
  have hform : "URN:uuid:EF8ABCB2-402B-48e7-99e0-46969938C5FF".toLower ∈ someId.forms := by decide +kernel
  obtain ⟨-, -, hsame, hread⟩ :=
    ofKey_spells " k\n" "k" "URN:uuid:EF8ABCB2-402B-48e7-99e0-46969938C5FF" someId
  exact ⟨htrim, hsame htrim, hform, hread.2 hform⟩

end ActivityId
end AgentRelay
