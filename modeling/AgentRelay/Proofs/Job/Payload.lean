import AgentRelay.Event.Rules
import AgentRelay.Proofs.Json.Overlooks
import AgentRelay.Proofs.Json.Unbroken
import AgentRelay.Proofs.Job.Line

/-!
# The body of an event and its payload

A body is looked at twice. An event is decoded from it by typed readers, and its payload is cut out of it
by the machine of `extent`. The machine cuts what the readers take, but it resolves no strings: a body
whose unknown members are no UTF-8 has an event and no payload. Where there is a payload, it says what the
body says.

* `SessionEvent.typed_reader`: events are read by typed readers.
* `Job.exists_ofDelivery_iff`: which bodies of events make jobs.
* `Payload.ofBody_keeps`: what the payload of a body says.
-/

namespace AgentRelay

open Json

/-! ### The readers of an event -/

@[simp] theorem Instant.typed_reader : Typed Instant.reader := by
  have hsift : Instant.reader = (stringAs "an RFC 3339 formatted date and time string").sift fun s =>
      (Instant.read? s).elim (.error .date) .ok := by
    funext n b
    unfold Instant.reader Reader.sift
    cases stringAs "an RFC 3339 formatted date and time string" n b with
    | error e => rfl
    | ok x =>
      obtain ⟨s, rest⟩ := x
      dsimp only
      cases Instant.read? s <;> rfl
  rw [hsift]
  exact (Typed.string _).sift _

@[simp] theorem ExternalUrl.typed_reader : Typed ExternalUrl.reader :=
  typed_record _ _ (by simp [fields])

@[simp] theorem Issue.typed_reader : Typed Issue.reader := typed_record _ _ (by simp [fields])

@[simp] theorem Comment.typed_reader : Typed Comment.reader := typed_record _ _ (by simp [fields])

@[simp] theorem Guidance.typed_reader : Typed Guidance.reader := typed_record _ _ (by simp [fields])

@[simp] theorem Content.typed_reader : Typed Content.reader := typed_record _ _ (by simp [fields])

@[simp] theorem Activity.typed_reader : Typed Activity.reader := typed_record _ _ (by simp [fields])

@[simp] theorem Session.typed_reader : Typed Session.reader := typed_record _ _ (by simp [fields])

namespace SessionEvent

@[simp] theorem typed_version : Typed version := (Typed.integer _ _ _).map _

theorem typed_reader : Typed reader := typed_record _ _ (by simp [fields])

end SessionEvent

/-! ### Text with white space around it -/

namespace Bytes

theorem isSome_ofUtf8?_iff {b : Bytes} : (ofUtf8? b).isSome ↔ ∃ s, b = utf8 s := by
  constructor
  · intro h
    obtain ⟨s, hs⟩ := Option.isSome_iff_exists.1 h
    exact ⟨s, eq_utf8_of_ofUtf8? hs⟩
  · rintro ⟨s, rfl⟩
    simp

/-- The bytes of characters. -/
theorem isSome_ofUtf8?_iff_chars {b : Bytes} :
    (ofUtf8? b).isSome ↔ ∃ cs : List Char, b = cs.flatMap String.utf8EncodeChar := by
  rw [isSome_ofUtf8?_iff]
  constructor
  · rintro ⟨s, rfl⟩
    exact ⟨s.toList, utf8_eq_flatMap s⟩
  · rintro ⟨cs, rfl⟩
    exact ⟨String.ofList cs, by rw [utf8_eq_flatMap, String.toList_ofList]⟩

/-- ASCII bytes are text. -/
theorem isSome_ofUtf8?_of_lt {b : Bytes} (h : ∀ x ∈ b, x < 128) : (ofUtf8? b).isSome := by
  have hchar : ∀ n < 128, (Char.ofNat n).toNat = n := by decide
  rw [isSome_ofUtf8?_iff_chars]
  induction b with
  | nil => exact ⟨[], rfl⟩
  | cons x b ih =>
    obtain ⟨hx, hb⟩ := List.forall_mem_cons.1 h
    obtain ⟨cs, rfl⟩ := ih hb
    have hx : x.toNat < 128 := UInt8.lt_iff_toNat_lt.1 hx
    refine ⟨Char.ofNat x.toNat :: cs, ?_⟩
    rw [List.flatMap_cons, utf8EncodeChar_of_lt ((hchar _ hx).symm ▸ hx), ascii, hchar _ hx]
    simp

/-- The character that an ASCII byte belongs to is that byte. -/
theorem utf8EncodeChar_of_mem {c : Char} {x : UInt8} (hx : x < 128) (h : x ∈ String.utf8EncodeChar c) :
    String.utf8EncodeChar c = [x] := by
  rcases Nat.lt_or_ge c.toNat 128 with hc | hc
  · rw [utf8EncodeChar_of_lt hc] at h ⊢
    rw [List.mem_singleton.1 h]
  · exact absurd hx (UInt8.not_lt.2 (le_of_mem_utf8EncodeChar hc h))

theorem utf8EncodeChar_ne_nil (c : Char) : String.utf8EncodeChar c ≠ [] := by
  intro h
  have hlength := congrArg List.length h
  have := c.utf8Size_pos
  simp at hlength
  omega

theorem exists_utf8EncodeChar_eq {x : UInt8} (hx : x < 128) : ∃ c, String.utf8EncodeChar c = [x] := by
  have hlt : x.toNat < 128 := UInt8.lt_iff_toNat_lt.1 hx
  have hnat : (Char.ofNat x.toNat).toNat = x.toNat := by
    rw [Char.ofNat, dif_pos (.inl (by omega))]
    rfl
  refine ⟨Char.ofNat x.toNat, ?_⟩
  rw [utf8EncodeChar_of_lt (by rw [hnat]; exact hlt), ascii, hnat]
  simp

/-- An ASCII byte in front is a character of its own. -/
theorem isSome_ofUtf8?_cons {x : UInt8} (hx : x < 128) (b : Bytes) :
    (ofUtf8? (x :: b)).isSome ↔ (ofUtf8? b).isSome := by
  simp only [isSome_ofUtf8?_iff_chars]
  constructor
  · rintro ⟨cs, hcs⟩
    cases cs with
    | nil => cases hcs
    | cons c cs =>
      obtain ⟨y, ys, hc⟩ := List.exists_cons_of_ne_nil (utf8EncodeChar_ne_nil c)
      rw [List.flatMap_cons] at hcs
      have hmem : x ∈ String.utf8EncodeChar c := by
        rw [hc] at hcs ⊢
        simp [(List.cons.inj hcs).1]
      rw [utf8EncodeChar_of_mem hx hmem] at hcs
      exact ⟨cs, (List.cons.inj hcs).2⟩
  · rintro ⟨cs, rfl⟩
    obtain ⟨c, hc⟩ := exists_utf8EncodeChar_eq hx
    exact ⟨c :: cs, by simp [hc]⟩

/-- So it is at the end. -/
theorem isSome_ofUtf8?_concat {x : UInt8} (hx : x < 128) (b : Bytes) :
    (ofUtf8? (b ++ [x])).isSome ↔ (ofUtf8? b).isSome := by
  simp only [isSome_ofUtf8?_iff_chars]
  constructor
  · rintro ⟨cs, hcs⟩
    obtain rfl | ⟨cs, c, rfl⟩ := cs.eq_nil_or_concat
    · simp at hcs
    · rw [List.concat_eq_append, List.flatMap_append, List.flatMap_singleton] at hcs
      have hmem : x ∈ String.utf8EncodeChar c := by
        have hlast := congrArg List.getLast? hcs
        rw [List.getLast?_append_of_ne_nil _ (utf8EncodeChar_ne_nil c)] at hlast
        exact List.mem_of_getLast? (by simpa using hlast.symm)
      rw [utf8EncodeChar_of_mem hx hmem] at hcs
      exact ⟨cs, List.append_cancel_right hcs⟩
  · rintro ⟨cs, rfl⟩
    obtain ⟨c, hc⟩ := exists_utf8EncodeChar_eq hx
    exact ⟨cs ++ [c], by simp [hc]⟩

theorem lt_of_isSpace {x : UInt8} (h : isSpace x = true) : x < 128 := by
  unfold isSpace at h
  grind

/-- White space around a text is text. -/
theorem isSome_ofUtf8?_spaces {before after : Bytes} (hbefore : IsSpaces before) (hafter : IsSpaces after)
    (b : Bytes) : (ofUtf8? (before ++ (b ++ after))).isSome ↔ (ofUtf8? b).isSome := by
  have hfront : ∀ t, (ofUtf8? (before ++ t)).isSome ↔ (ofUtf8? t).isSome := by
    intro t
    induction before with
    | nil => rfl
    | cons x before ih =>
      rw [List.cons_append, isSome_ofUtf8?_cons (lt_of_isSpace (hbefore x (by simp)))]
      exact ih fun y hy => hbefore y (by simp [hy])
  rw [hfront]
  induction after generalizing b with
  | nil => simp
  | cons x after ih =>
    rw [List.append_cons]
    exact (ih (fun y hy => hafter y (by simp [hy])) _).trans
      (isSome_ofUtf8?_concat (lt_of_isSpace (hafter x (by simp))) b)

end Bytes

/-! ### Values in bodies -/

namespace Json

variable {body t rest : Bytes}

/-- A cut value is a value text, and the text goes on behind it. -/
theorem spec_of_valueText? (h : valueText? body = some (t, rest)) :
    IsValueText t ∧ skipSpace body = t ++ rest := by
  obtain ⟨r, hr, heq⟩ := Option.map_eq_some_iff.1 h
  obtain ⟨ht, rfl⟩ := Prod.mk.inj heq
  obtain ⟨t', ht', -⟩ := extent_take hr
  obtain rfl : t' = t := by simpa [ht'] using ht
  exact ⟨isValueText_of_valueText? h, ht'⟩

/-- What a typed reader takes from a whole text is cut from it. -/
theorem Typed.exists_valueText {α : Type} {r : Reader α} (hr : Typed r) {a : α}
    (h : readAll r body = .ok a) :
    ∃ rest, IsSpaces rest ∧ valueText? body = some (trimSpace body, rest) := by
  unfold readAll at h
  split at h
  · cases h
  · rename_i x rest hread
    split_ifs at h with hrest
    have hrest : Json.skipSpace rest = [] := List.isEmpty_iff.1 hrest
    have hskip : skipValue (Json.skipSpace body) = some rest := by
      rw [skipValue, extent_skipSpace (by simp), (hr.takes _ _ _ _ hread).2, extent_after_nil]
    have hvalue : valueText? body = some ((Json.skipSpace body).take
        ((Json.skipSpace body).length - rest.length), rest) := by simp [valueText?, hskip]
    refine ⟨rest, List.dropWhile_eq_nil_iff.1 hrest, ?_⟩
    rw [valueText?_eq hvalue hrest, hvalue]

theorem skipSpace_map_unbroken (t : Bytes) : skipSpace (t.map unbroken) = (skipSpace t).map unbroken := by
  have hspace : isSpace ∘ unbroken = isSpace := by
    funext c
    cases hc : isSpace c with
    | false => rw [Function.comp_apply, unbroken_of_not_isSpace hc, hc]
    | true => exact isSpace_unbroken hc
  rw [skipSpace, List.dropWhile_map, hspace, ← skipSpace]

/-- A value text stays one when its line breaks become spaces. -/
theorem IsValueText.unbroken (h : IsValueText t) : IsValueText (t.map unbroken) := by
  obtain ⟨hskip, hvalue⟩ := h.spec
  have hskip' : skipSpace (t.map Json.unbroken) = t.map Json.unbroken := by
    rw [skipSpace_map_unbroken, hskip]
  have hvalue' : skipValue (t.map Json.unbroken) = some [] := extent_unbroken (.inl trivial) hvalue
  have htake : (t.map Json.unbroken).take t.length = t.map Json.unbroken :=
    List.take_of_length_le (by simp)
  simp [IsValueText, valueText?, hskip', hvalue', htake]

end Json

namespace Payload

/-- A value that is text is read as a payload. -/
theorem exists_readAll {body t rest : Bytes} {s : String} (hrest : IsSpaces rest)
    (h : valueText? body = some (t, rest)) (hs : Bytes.ofUtf8? t = some s) :
    ∃ p, readAll reader body = .ok p := by
  have hreader : ∃ p, reader body.length body = .ok (p, rest) := by
    unfold reader
    split
    · simp_all
    · rename_i t' r ht
      obtain ⟨rfl, rfl⟩ : t = t' ∧ rest = r := by simpa [h] using ht
      split
      · simp_all
      · exact ⟨_, rfl⟩
  obtain ⟨p, hp⟩ := hreader
  refine ⟨p, ?_⟩
  simp [readAll, hp, skipSpace_of_isSpaces hrest]

/-- The line breaks of a payload can become spaces. -/
theorem exists_ofText?_oneLine (p : Payload) : ∃ q, ofText? (oneLine p.text) = some q := by
  have hvalue : IsValueText (Bytes.utf8 (oneLine p.text)) := by
    rw [utf8_oneLine]
    exact p.isValue.unbroken
  exact ⟨_, dif_pos hvalue⟩

/-- A value can be a payload just when it is UTF-8. -/
theorem exists_ofBody_iff {body rest : Bytes} (hrest : IsSpaces rest)
    (h : valueText? body = some (trimSpace body, rest)) :
    (∃ p, ofBody body = .ok p) ↔ (Bytes.ofUtf8? body).isSome := by
  obtain ⟨before, hbefore, hbody⟩ := exists_isSpaces_append body
  have htext : (Bytes.ofUtf8? body).isSome ↔ (Bytes.ofUtf8? (trimSpace body)).isSome := by
    conv_lhs => rw [hbody, (spec_of_valueText? h).2, Bytes.isSome_ofUtf8?_spaces hbefore hrest]
  rw [htext]
  constructor
  · rintro ⟨p, hp⟩
    unfold ofBody at hp
    split at hp
    · cases hp
    · rename_i q hq
      rw [← json_of_readAll hq, json, Bytes.ofUtf8?_utf8]
      rfl
  · intro hs
    obtain ⟨s, hs⟩ := Option.isSome_iff_exists.1 hs
    obtain ⟨p, hp⟩ := exists_readAll hrest h hs
    obtain ⟨q, hq⟩ := p.exists_ofText?_oneLine
    unfold ofBody
    rw [hp]
    dsimp only
    split_ifs
    · exact ⟨q, by rw [hq]⟩
    · exact ⟨p, rfl⟩

theorem exists_valueText_of_readAll {body : Bytes} {p : Payload} (h : readAll reader body = .ok p) :
    ∃ rest, IsSpaces rest ∧ valueText? body = some (trimSpace body, rest) := by
  unfold readAll at h
  split at h
  · cases h
  · rename_i q rest hq
    split_ifs at h with hrest
    have hrest : skipSpace rest = [] := List.isEmpty_iff.1 hrest
    refine ⟨rest, List.dropWhile_eq_nil_iff.1 hrest, ?_⟩
    unfold reader at hq
    split at hq
    · cases hq
    · rename_i t r ht
      split at hq
      · cases hq
      · cases hq
        rw [valueText?_eq ht hrest, ht]

/-- Where a payload comes from. -/
theorem exists_valueText_of_ofBody {body : Bytes} {p : Payload} (h : ofBody body = .ok p) :
    ∃ rest, IsSpaces rest ∧ valueText? body = some (trimSpace body, rest) := by
  unfold ofBody at h
  split at h
  · cases h
  · exact exists_valueText_of_readAll ‹_›

/-- The text of a payload is on one line. -/
theorem no_breaks_of_ofBody {body : Bytes} {p : Payload} (h : ofBody body = .ok p) :
    ∀ c ∈ p.text.toList, c ≠ '\n' ∧ c ≠ '\r' := by
  have hbreak : ∀ x ∈ [10, 13], x ∉ p.json := by
    intro x hx hmem
    rw [json_of_ofBody h] at hmem
    obtain ⟨y, -, rfl⟩ := List.mem_map.1 hmem
    unfold unbroken at hx
    grind
  have hchar : ∀ c ∈ p.text.toList, ∀ x ∈ String.utf8EncodeChar c, x ∈ p.json := by
    intro c hc x hx
    rw [json, Bytes.utf8_eq_flatMap]
    exact List.mem_flatMap.2 ⟨c, hc, hx⟩
  intro c hc
  constructor
  · rintro rfl
    exact hbreak 10 (by simp) (hchar _ hc 10 (by decide))
  · rintro rfl
    exact hbreak 13 (by simp) (hchar _ hc 13 (by decide))

/-- A payload is its own payload. -/
theorem ofBody_json {body : Bytes} {p : Payload} (h : ofBody body = .ok p) : ofBody p.json = .ok p := by
  have hread : readAll reader p.json = .ok p := readAll_of_reads (reads_payload p)
  have hplain : (p.text.toList.any fun c => c == '\n' || c == '\r') = false := by
    simpa using no_breaks_of_ofBody h
  simp [ofBody, hread, hplain]

/-- A payload has the tokens of its body. -/
theorem respaced_of_ofBody {body : Bytes} {p : Payload} (h : ofBody body = .ok p) :
    Respaced (skipSpace body) (skipSpace p.json) := by
  obtain ⟨rest, hrest, hvalue⟩ := exists_valueText_of_ofBody h
  obtain ⟨hspec, hskip⟩ := spec_of_valueText? hvalue
  have hjson : skipSpace p.json = (trimSpace body).map unbroken := by
    rw [json, p.isValue.spec.1, ← json, json_of_ofBody h]
  rw [hskip, hjson]
  exact respaced_unbroken (p := .value) trivial hspec.spec.2 hrest

/-- What a payload keeps of its body. -/
structure Keeps (p : Payload) (body : Bytes) : Prop where
  one_line : ∀ c ∈ p.text.toList, c ≠ '\n' ∧ c ≠ '\r'
  length_eq : p.json.length = (trimSpace body).length
  /-- Only what lies outside of string literals may differ. -/
  literals_kept : ∀ i : Nat, p.json[i]? ≠ (trimSpace body)[i]? →
    (literals .outside (trimSpace body))[i]? = some false
  again : ofBody p.json = .ok p
  /-- The same event is decoded, or none for the same reason. -/
  decode_eq : SessionEvent.decode p.json = SessionEvent.decode body
  /-- The jobs of the body are written on one line. -/
  one_record : ∀ event deliveryId receivedAt j, Job.ofDelivery event body deliveryId receivedAt = .ok j →
    j.line.count 10 = 1 ∧ j.line.getLast? = some 10

/-- **A payload says what its body says.** It is on one line, as long as the body without white space
around it, and another text only outside of string literals. It is its own payload, and the same event is
decoded from it, or none for the same reason. So the jobs of the body are written on one line. -/
theorem ofBody_keeps {body : Bytes} {p : Payload} (h : ofBody body = .ok p) : p.Keeps body := by
  obtain ⟨rest, hrest, hvalue⟩ := exists_valueText_of_ofBody h
  have hjson := json_of_ofBody h
  refine ⟨no_breaks_of_ofBody h, by rw [hjson, List.length_map], fun i hi => ?_, ofBody_json h, ?_, ?_⟩
  · by_contra hliteral
    refine hi ?_
    rw [hjson]
    exact getElem?_map_unbroken (p := .value) (.inl trivial) (spec_of_valueText? hvalue).1.spec.2 hliteral
  · rw [SessionEvent.decode, SessionEvent.decode,
      SessionEvent.typed_reader.readAll_eq (respaced_of_ofBody h)]
  · intro event deliveryId receivedAt j hj
    have hpayload : j.payload = p := by
      unfold Job.ofDelivery at hj
      rw [h] at hj
      cases hj
      rfl
    have hline : IsOneLine j.json := Job.isOneLine_json (hpayload ▸ isOneLine_of_ofBody h)
    have hcount : j.json.count 10 = 0 := List.count_eq_zero.2 hline
    simp [Job.line, hcount]

/-- A body with line breaks between its tokens and around its value, and the escape of one in a string. -/
def spread : Bytes :=
  Bytes.utf8 "\n\x7b\"payloadVersion\":1,\r\n\"action\":\"cre\\u0061ted\",\"agentSession\":\x7b\"state\":\n\"pending\"\x7d\x7d\n"

theorem ofBody_keeps_spread : ∃ p e j, Payload.ofBody spread = .ok p ∧ p.json ≠ trimSpace spread ∧
    SessionEvent.decode p.json = .ok e ∧ Job.ofDelivery e spread none .epoch = .ok j ∧
    j.line.count 10 = 1 ∧ j.line.getLast? = some 10 := by
  obtain ⟨p, hp, hne⟩ : ∃ p, ofBody spread = .ok p ∧ decide (p.json ≠ trimSpace spread) = true :=
    Job.exists_of_any (by decide +kernel)
  obtain ⟨e, he⟩ : ∃ e, SessionEvent.decode spread = .ok e := Job.exists_of_isOk (by decide +kernel)
  have hkeeps := ofBody_keeps hp
  obtain ⟨j, hj⟩ : ∃ j, Job.ofDelivery e spread none .epoch = .ok j := by
    rw [Job.ofDelivery, hp]
    exact ⟨_, rfl⟩
  exact ⟨p, e, j, hp, by simpa using hne, hkeeps.decode_eq.trans he, hj, hkeeps.one_record e none .epoch j hj⟩

end Payload

namespace Job

/-- **Which bodies of events make jobs.** A body that an event is decoded from makes a job just when it is
UTF-8, whatever else is known of its delivery. -/
theorem exists_ofDelivery_iff {body : Bytes} {event : SessionEvent}
    (h : SessionEvent.decode body = .ok event) (deliveryId : Option String) (receivedAt : Instant) :
    (∃ j, ofDelivery event body deliveryId receivedAt = .ok j) ↔ (Bytes.ofUtf8? body).isSome := by
  have hread : ∃ e, readAll SessionEvent.reader body = .ok e := by
    unfold SessionEvent.decode at h
    split at h
    · cases h
    · exact ⟨_, ‹_›⟩
  obtain ⟨e, hread⟩ := hread
  obtain ⟨rest, hrest, hvalue⟩ := SessionEvent.typed_reader.exists_valueText hread
  rw [← Payload.exists_ofBody_iff hrest hvalue]
  unfold ofDelivery
  split
  · simp_all
  · simp_all

/-- A body with an unknown member whose value is a string of one byte. -/
def withNote (note : UInt8) : Bytes :=
  Bytes.utf8 "\x7b\"action\":\"created\",\"payloadVersion\":1,\"agentSession\":\x7b\"id\":\"s\",\"state\":\"pending\"\x7d,\"x\":\"" ++
    note :: Bytes.utf8 "\"\x7d"

theorem exists_ofDelivery_iff_note : ∃ e, SessionEvent.decode (withNote 97) = .ok e ∧
    ∃ j, ofDelivery e (withNote 97) none .epoch = .ok j := by
  obtain ⟨e, he⟩ : ∃ e, SessionEvent.decode (withNote 97) = .ok e := exists_of_isOk (by decide +kernel)
  exact ⟨e, he, (exists_ofDelivery_iff he none .epoch).2 (by decide +kernel)⟩

/-- The byte 255 is no text, and a string that nothing reads may hold it. -/
theorem not_exists_ofDelivery : ¬ ∀ body event deliveryId receivedAt,
    SessionEvent.decode body = .ok event → ∃ j, ofDelivery event body deliveryId receivedAt = .ok j := by
  intro hall
  obtain ⟨e, he⟩ : ∃ e, SessionEvent.decode (withNote 255) = .ok e := exists_of_isOk (by decide +kernel)
  obtain ⟨j, hj⟩ := hall (withNote 255) e none .epoch he
  have herror : Payload.ofBody (withNote 255) = .error .malformed := by decide +kernel
  unfold ofDelivery at hj
  rw [herror] at hj
  cases hj

end Job
end AgentRelay
