import AgentRelay.Proofs.Json.Tokens

/-!
# Readers of values and the machine that passes values over

A text is looked at twice when a typed reader takes a value from it and the machine of `extent` passes
the same value over. The two are different programs: the reader knows which types to expect, resolves
strings and bounds numbers; the machine knows brackets only. Whatever a typed reader takes, the machine
passes over, and it comes as far.

* `Typed` are the readers that are built from those of strings, booleans, integers, arrays and records.
* `Takes` is what holds of such a reader, `Typed.takes` says so.
-/

namespace AgentRelay.Json

variable {α β σ : Type}

/-- Reads a value and goes on with what it stands for, if anything. -/
def Reader.sift (r : Reader α) (f : α → Except Fault β) : Reader β := fun n b =>
  match r n b with
  | .error e => .error e
  | .ok (a, rest) =>
    match f a with
    | .error e => .error e
    | .ok x => .ok (x, rest)

theorem Reader.bind_eq_ok {r : Reader α} {f : α → Reader β} {n : Nat} {b rest : Bytes} {c : β} :
    r.bind f n b = .ok (c, rest) ↔ ∃ a mid, r n b = .ok (a, mid) ∧ f a n mid = .ok (c, rest) := by
  unfold Reader.bind
  cases hr : r n b with
  | error e => simp
  | ok x =>
    obtain ⟨a, mid⟩ := x
    simp

theorem Reader.sift_eq_ok {r : Reader α} {f : α → Except Fault β} {n : Nat} {b rest : Bytes} {x : β} :
    r.sift f n b = .ok (x, rest) ↔ ∃ a, r n b = .ok (a, rest) ∧ f a = .ok x := by
  unfold Reader.sift
  cases hr : r n b with
  | error e => simp
  | ok y =>
    obtain ⟨a, mid⟩ := y
    cases hf : f a <;> grind

theorem Reader.map_eq_sift (r : Reader α) (f : α → β) : r.map f = r.sift fun a => .ok (f a) := by
  funext n b
  simp only [Reader.map, Reader.bind, Reader.pure, Reader.sift]
  cases r n b <;> rfl

/-- Readers of values of a fixed type. -/
inductive Typed : {α : Type} → Reader α → Prop
  | string (expected : String) : Typed (stringAs expected)
  | boolean : Typed boolean
  | integer (expected : String) (low high : Int) : Typed (integer expected low high)
  | nullable {α : Type} {r : Reader α} (h : Typed r) : Typed (nullable r)
  | list {α : Type} {r : Reader α} (h : Typed r) : Typed (list r)
  | record {σ : Type} (expected : String) {fields : List (MemberReader σ)} (start : σ)
      (check : Bool → σ → Option Fault) (h : ∀ f ∈ fields, Typed f.read) :
      Typed (checkedRecord expected fields start check)
  | sift {α β : Type} {r : Reader α} (h : Typed r) (f : α → Except Fault β) : Typed (r.sift f)

theorem Typed.map {r : Reader α} (h : Typed r) (f : α → β) : Typed (r.map f) :=
  r.map_eq_sift f ▸ h.sift _

@[simp] theorem typed_string : Typed string := .string _

@[simp] theorem Typed.field {r : Reader α} (h : Typed r) (name : String) (store : α → σ → σ) :
    Typed (field name r store).read :=
  h.map store

attribute [simp] Typed.nullable Typed.list

theorem typed_record (expected : String) {fields : List (MemberReader σ)} (start : σ)
    (h : ∀ f ∈ fields, Typed f.read) : Typed (Json.record expected fields start) :=
  .record expected start _ h

/-! ### Single values -/

/-- The machine passes over what the reader takes, and leaves what the reader leaves. -/
def Takes (r : Reader α) : Prop :=
  ∀ n b a rest, r n b = .ok (a, rest) →
    rest <:+ b ∧ ∀ stack, extent .value stack b = extent .after stack rest

theorem suffix_of_skipSpace {b tail : Bytes} {c : UInt8} (h : skipSpace b = c :: tail) : tail <:+ b :=
  (List.suffix_cons c tail).trans (h ▸ skipSpace_suffix b)

theorem isSpace_of_skipSpace {b tail : Bytes} {c : UInt8} (h : skipSpace b = c :: tail) :
    isSpace c = false := by
  have hhead := List.head?_dropWhile_not isSpace b
  rw [← skipSpace, h] at hhead
  simpa using hhead

theorem extent_of_skipSpace {b t : Bytes} (h : skipSpace b = t) (stack : List Frame) :
    extent .value stack b = extent .value stack t := by
  rw [← h, extent_skipSpace (by simp)]

/-- A word is taken behind its first letter. -/
theorem takes_word {b tail w rest : Bytes} {c : UInt8} (hb : skipSpace b = c :: tail)
    (hw : c :: w ∈ words) (h : dropWord? w tail = some rest) :
    rest <:+ b ∧ ∀ stack, extent .value stack b = extent .after stack rest := by
  obtain rfl := dropWord?_eq_some.1 h
  refine ⟨(List.suffix_append _ _).trans (suffix_of_skipSpace hb), fun stack => ?_⟩
  rw [extent_of_skipSpace hb, ← List.cons_append, extent_word hw]

theorem takes_stringAs (expected : String) : Takes (stringAs expected) := by
  intro n b s rest h
  unfold stringAs at h
  split at h
  · rename_i tail hskip
    obtain ⟨body, hbody, rfl⟩ := stringRest_eq_ok h
    refine ⟨?_, fun stack => ?_⟩
    · exact (List.suffix_cons _ _).trans ((List.suffix_append _ _).trans (suffix_of_skipSpace hskip))
    · rw [extent_of_skipSpace hskip, extent_cons (q := .text false) (s := stack) rfl, hbody.extent]
      rfl
  · cases h

theorem takes_boolean : Takes boolean := by
  intro n b a rest h
  unfold boolean at h
  split at h
  · rename_i tail hskip
    split at h
    · rename_i hword
      cases h
      exact takes_word hskip (by simp [words]) hword
    · cases h
  · rename_i tail hskip
    split at h
    · rename_i hword
      cases h
      exact takes_word hskip (by simp [words]) hword
    · cases h
  · cases h

theorem takes_integer (expected : String) (low high : Int) : Takes (integer expected low high) := by
  intro n b a rest h
  unfold integer at h
  dsimp only at h
  split at h
  · cases h
  · split_ifs at h
    split at h
    · cases h
    · rename_i hread
      split at h
      · split_ifs at h
        cases h
        refine ⟨(Numeral.read?_extent hread []).1.trans (skipSpace_suffix b), fun stack => ?_⟩
        rw [← (Numeral.read?_extent hread stack).2, extent_skipSpace (by simp)]
      · cases h

theorem Takes.sift {r : Reader α} (h : Takes r) (f : α → Except Fault β) : Takes (r.sift f) := by
  intro n b x rest hx
  obtain ⟨a, ha, -⟩ := Reader.sift_eq_ok.1 hx
  exact h n b a rest ha

theorem Takes.map {r : Reader α} (h : Takes r) (f : α → β) : Takes (r.map f) :=
  r.map_eq_sift f ▸ h.sift _

theorem Takes.nullable {r : Reader α} (h : Takes r) : Takes (nullable r) := by
  intro n b a rest ha
  unfold Json.nullable at ha
  split at ha
  · rename_i tail hskip
    split at ha
    · rename_i hword
      cases ha
      exact takes_word hskip (by simp [words]) hword
    · cases ha
  · obtain ⟨hsuffix, hextent⟩ := h.map some n _ a rest ha
    exact ⟨hsuffix.trans (skipSpace_suffix b), fun stack => by rw [← hextent, extent_skipSpace (by simp)]⟩

/-! ### Brackets -/

/-- The phase behind an opening bracket, or behind an element. -/
def Frame.before (k : Frame) (first : Bool) : Phase := if first then k.first else .after

/-- Inside a bracket a reader gets from `b` to `rest`. When the bracket closes there, the machine passes
over what was read and over the bracket. -/
def PassesTo (k : Frame) (first : Bool) (b rest : Bytes) : Prop :=
  rest <:+ b ∧ ∀ stack tail, skipSpace rest = k.closing :: tail →
    extent (k.before first) (k :: stack) b = extent .after stack tail

variable {k : Frame} {first : Bool} {stack : List Frame} {b rest : Bytes}

theorem extent_before_skipSpace (k : Frame) (first : Bool) (stack : List Frame) (b : Bytes) :
    extent (k.before first) (k :: stack) (skipSpace b) = extent (k.before first) (k :: stack) b := by
  cases first with
  | false => exact extent_after_skipSpace k stack b
  | true => exact extent_skipSpace (by cases k <;> simp [Frame.before, Frame.first]) b

theorem passesTo_refl (k : Frame) (first : Bool) (b : Bytes) : PassesTo k first b b := by
  refine ⟨List.suffix_refl b, fun stack tail h => ?_⟩
  rw [← extent_before_skipSpace, h]
  cases first with
  | false => exact extent_closing k stack tail
  | true => exact extent_first_closing k stack tail

/-- An element is read, and then the ones behind it. -/
theorem PassesTo.step {mid : Bytes} (hsuffix : mid <:+ b)
    (hextent : ∀ stack, extent (k.before first) (k :: stack) b = extent .after (k :: stack) mid)
    (h : PassesTo k false mid rest) : PassesTo k first b rest :=
  ⟨h.1.trans hsuffix, fun stack tail htail => (hextent stack).trans (h.2 stack tail htail)⟩

theorem extent_before_of_skipSpace {t : Bytes} (h : skipSpace b = t) (stack : List Frame) :
    extent (k.before first) (k :: stack) b = extent (k.before first) (k :: stack) t := by
  rw [← h, extent_before_skipSpace]

/-- Behind an opening bracket, what does not close it is read as behind a comma. -/
theorem extent_first_cons {c : UInt8} {tail : Bytes} (hc : isSpace c = false) (hne : c ≠ k.closing)
    (stack : List Frame) : extent k.first stack (c :: tail) = extent k.next stack (c :: tail) := by
  have hstep : step k.first stack c = step k.next stack c := by
    cases k <;> simp_all [step, Frame.first, Frame.next, Frame.closing]
  rw [extent, extent, hstep]
  cases k <;> rfl

/-- Behind an element and a comma comes the next one. -/
theorem extent_before_comma {tail : Bytes} (h : skipSpace b = 44 :: tail) (stack : List Frame) :
    extent (k.before false) (k :: stack) b = extent k.next (k :: stack) tail := by
  rw [extent_before_of_skipSpace h]
  exact extent_comma k stack tail

/-- The next element of an array starts where the machine waits for a value. -/
theorem nextItem_eq_ok {n : Nat} {more : Bool} (h : nextItem first n b = .ok (more, rest)) :
    rest <:+ b ∧ if more then ∀ stack,
        extent (Frame.array.before first) (.array :: stack) b = extent .value (.array :: stack) rest
      else skipSpace b = rest := by
  unfold nextItem at h
  split at h
  · cases h
  · rename_i hskip
    cases h
    exact ⟨hskip ▸ skipSpace_suffix b, hskip⟩
  · rename_i c tail hne hskip
    split at h
    · rename_i hfirst
      subst hfirst
      cases h
      refine ⟨hskip ▸ skipSpace_suffix b, fun stack => ?_⟩
      rw [extent_before_of_skipSpace hskip]
      exact extent_first_cons (k := .array) (isSpace_of_skipSpace hskip) hne _
    · rename_i hfirst
      obtain rfl : first = false := by simpa using hfirst
      split_ifs at h with hcomma
      obtain rfl : c = 44 := by simpa using hcomma
      split at h
      · cases h
      · cases h
        refine ⟨(skipSpace_suffix tail).trans (suffix_of_skipSpace hskip), fun stack => ?_⟩
        rw [extent_before_comma hskip, extent_skipSpace (by simp)]
        rfl

/-- A key ends where the machine waits for a colon. -/
theorem extent_key {n : Nat} {key : Option String} {tail : Bytes}
    (h : (stringRest.map some) n tail = .ok (key, rest)) :
    rest <:+ tail ∧ ∀ stack, extent .key stack (34 :: tail) = extent .colon stack rest := by
  obtain ⟨s, behind, hs, ⟨⟩⟩ := Reader.bind_eq_ok.1 h
  obtain ⟨body, hbody, rfl⟩ := stringRest_eq_ok hs
  refine ⟨(List.suffix_cons _ _).trans (List.suffix_append _ _), fun stack => ?_⟩
  rw [extent_cons (q := .text true) (s := stack) rfl, hbody.extent]
  rfl

/-- The next key of an object ends where the machine waits for a colon. -/
theorem nextKey_eq_some {n : Nat} {key : String} (h : nextKey first n b = .ok (some key, rest)) :
    rest <:+ b ∧ rest.length < b.length ∧ ∀ stack,
      extent (Frame.object.before first) (.object :: stack) b = extent .colon (.object :: stack) rest := by
  unfold nextKey at h
  dsimp only at h
  split at h
  · cases h
  · cases h
  · rename_i c tail hne hskip
    have htail := suffix_of_skipSpace hskip
    have hlength : tail.length < b.length := by
      have := (skipSpace_suffix b).length_le
      simp only [hskip, List.length_cons] at this
      omega
    split at h
    · rename_i hfirst
      subst hfirst
      split at h
      · rename_i t tail' heq
        cases heq
        obtain ⟨hsuffix, hextent⟩ := extent_key h
        refine ⟨hsuffix.trans htail, hsuffix.length_le.trans_lt hlength, fun stack => ?_⟩
        rw [extent_before_of_skipSpace hskip, ← hextent]
        exact extent_first_cons (k := .object) (by decide) (by decide) _
      · cases h
    · rename_i hfirst
      obtain rfl : first = false := by simpa using hfirst
      split_ifs at h with hcomma
      obtain rfl : c = 44 := by simpa using hcomma
      split at h
      · rename_i t tail' hskip'
        obtain ⟨hsuffix, hextent⟩ := extent_key h
        have hsuffix := hsuffix.trans (suffix_of_skipSpace hskip')
        refine ⟨hsuffix.trans htail, hsuffix.length_le.trans_lt hlength, fun stack => ?_⟩
        rw [extent_before_comma hskip, ← hextent, ← hskip', extent_skipSpace (by simp)]
        rfl
      · cases h

theorem nextKey_eq_none {n : Nat} (h : nextKey first n b = .ok (none, rest)) : skipSpace b = rest := by
  have hkey : ∀ {tail : Bytes}, (stringRest.map some) n tail ≠ .ok (none, rest) := by
    intro tail htail
    obtain ⟨s, mid, -, ⟨⟩⟩ := Reader.bind_eq_ok.1 htail
  unfold nextKey at h
  dsimp only at h
  split at h
  · cases h
  · rename_i hskip
    cases h
    exact hskip
  · split_ifs at h
    all_goals
      split at h
      · exact absurd h hkey
      · cases h

/-! ### Values that no type describes -/

theorem startValue_append {q : Phase} {stack s : List Frame} {c : UInt8}
    (h : startValue stack c = some (q, s)) (outer : List Frame) :
    startValue (stack ++ outer) c = some (q, s ++ outer) ∧ (q ∈ [Phase.item, .member] → s ≠ []) := by
  unfold startValue at h ⊢
  grind

theorem afterValue_append {q : Phase} {stack s : List Frame} {c : UInt8}
    (h : afterValue stack c = some (q, s)) (outer : List Frame) :
    afterValue (stack ++ outer) c = some (q, s ++ outer) ∧ (q ∈ [Phase.item, .member] → s ≠ []) := by
  rcases stack with _ | ⟨_ | _, stack⟩
  · cases h
  all_goals
    simp only [afterValue, List.cons_append] at h ⊢
    grind

theorem numberStep_append {p q : Phase} {stack s : List Frame} {c : UInt8}
    (h : (match numberStep p c with
      | some p => some (p, stack)
      | none => if p.ends then afterValue stack c else none) = some (q, s)) (outer : List Frame) :
    (match numberStep p c with
      | some p => some (p, stack ++ outer)
      | none => if p.ends then afterValue (stack ++ outer) c else none) = some (q, s ++ outer) ∧
      (q ∈ [Phase.item, .member] → s ≠ []) := by
  split at h
  · rename_i r hr
    cases h
    have hmem := mem_of_numberStep hr
    exact ⟨rfl, fun hq => by grind⟩
  · split_ifs at h ⊢
    exact afterValue_append h outer

/-- Inside of more brackets the machine takes the same steps. -/
theorem step_append {p q : Phase} {stack s : List Frame} {c : UInt8}
    (hp : p ∈ [Phase.item, .member] → stack ≠ []) (h : step p stack c = some (q, s))
    (outer : List Frame) :
    step p (stack ++ outer) c = some (q, s ++ outer) ∧ (q ∈ [Phase.item, .member] → s ≠ []) := by
  have hstart := fun h => @startValue_append q stack s c h outer
  cases p with
  | after => exact afterValue_append h outer
  | text isKey => simp only [step] at h ⊢; cases isKey <;> grind [Phase.afterText]
  | hex isKey left => simp only [step] at h ⊢; cases left <;> grind
  | word letters =>
    rcases letters with _ | ⟨x, _ | ⟨y, letters⟩⟩ <;> simp only [step] at h ⊢ <;> grind
  | value | item | member | key | colon | escape => simp only [step] at h ⊢; grind
  | minus | zero | whole | point | fraction | mark | sign | exponent => exact numberStep_append h outer

theorem Phase.ends_cases {p : Phase} (h : p.ends = true) :
    p = .after ∨ p ∈ [Phase.zero, .whole, .fraction, .exponent] := by
  cases p <;> simp_all [Phase.ends]

/-- Where the machine may stop and cannot go on, it stands behind a value. -/
theorem extent_of_step_eq_none {p : Phase} {c : UInt8} (hp : p.ends = true) (h : step p [] c = none)
    (stack : List Frame) (b : Bytes) : extent p stack (c :: b) = extent .after stack (c :: b) := by
  obtain rfl | hnumber := Phase.ends_cases hp
  · rfl
  refine extent_of_numberStep hnumber ?_
  rintro _ ⟨⟩
  simp only [List.mem_cons, List.not_mem_nil, or_false] at hnumber
  cases hstep : numberStep p c with
  | none => rfl
  | some q => obtain rfl | rfl | rfl | rfl := hnumber <;> simp [step, hstep] at h

/-- Where a value ends outside of brackets, it ends inside of them. -/
theorem extent_outside {p : Phase} {stack : List Frame} {b rest : Bytes}
    (hp : p ∈ [Phase.item, .member] → stack ≠ []) (h : extent p stack b = some rest)
    (outer : List Frame) : extent p (stack ++ outer) b = extent .after outer rest := by
  induction b generalizing p stack with
  | nil =>
    unfold extent at h
    split_ifs at h with hends
    cases h
    obtain ⟨hstop, rfl⟩ : p.ends = true ∧ stack = [] := by simpa using hends
    obtain rfl | hnumber := Phase.ends_cases hstop
    · rfl
    · exact extent_of_numberStep hnumber (by simp)
  | cons c b ih =>
    unfold extent at h
    split at h
    · rename_i q s hstep
      obtain ⟨hstep, hq⟩ := step_append hp hstep outer
      rw [extent_cons hstep, ih hq h]
    · rename_i hstep
      split_ifs at h with hends
      cases h
      obtain ⟨hstop, rfl⟩ : p.ends = true ∧ stack = [] := by simpa using hends
      exact extent_of_step_eq_none hstop hstep outer b

theorem takes_ignored : Takes ignored := by
  intro n b a rest h
  unfold ignored at h
  split at h
  · cases h
  · rename_i hskip
    cases h
    obtain ⟨t, rfl, -⟩ := extent_take hskip
    exact ⟨List.suffix_append _ _, fun stack => extent_outside (by simp) hskip stack⟩

/-! ### Arrays and records -/

/-- Reads a token of one byte. -/
def byte (c : UInt8) : Reader Unit := fun _ b =>
  match skipSpace b with
  | d :: rest => if d = c then .ok ((), rest) else .error .malformed
  | [] => .error .malformed

theorem closeBracket_eq : closeBracket = byte 93 := by
  funext n b
  unfold closeBracket byte
  split <;> split <;> simp_all

theorem closeBrace_eq : closeBrace = byte 125 := by
  funext n b
  unfold closeBrace byte
  split <;> split <;> simp_all

theorem colon_eq : colon = byte 58 := by
  funext n b
  unfold colon byte
  split <;> split <;> simp_all

theorem byte_eq_ok {c : UInt8} {n : Nat} {u : Unit} (h : byte c n b = .ok (u, rest)) :
    skipSpace b = c :: rest := by
  unfold byte at h
  split at h
  · rename_i d tail hskip
    split_ifs at h with hc
    cases h
    rw [hskip, hc]
  · cases h

/-- Nothing is left to be read in front of the closing bracket. -/
theorem passesTo_of_skipSpace (h : skipSpace b = rest) : PassesTo k first b rest := by
  refine ⟨h ▸ skipSpace_suffix b, fun stack tail htail => (passesTo_refl k first b).2 stack tail ?_⟩
  rw [← htail, ← h, skipSpace_idem]

/-- From one opening bracket to the closing one. -/
theorem PassesTo.value {tail tail' : Bytes} (h : PassesTo k true tail rest)
    (hb : skipSpace b = k.opening :: tail) (hrest : skipSpace rest = k.closing :: tail') :
    tail' <:+ b ∧ ∀ stack, extent .value stack b = extent .after stack tail' := by
  refine ⟨(suffix_of_skipSpace hrest).trans (h.1.trans (suffix_of_skipSpace hb)), fun stack => ?_⟩
  rw [extent_of_skipSpace hb, extent_opening]
  exact h.2 stack tail' hrest

theorem passesTo_items {r : Reader α} (hr : Takes r) {fuel n : Nat} {done l : List α}
    (h : items r fuel first done n b = .ok (l, rest)) : PassesTo .array first b rest := by
  induction fuel generalizing first done b with
  | zero => cases h
  | succ fuel ih =>
    rw [items] at h
    split at h
    · cases h
    · rename_i hnext
      cases h
      exact passesTo_of_skipSpace (nextItem_eq_ok hnext).2
    · rename_i mid hnext
      obtain ⟨hmid, hstart⟩ := nextItem_eq_ok hnext
      split at h
      · cases h
      · rename_i a behind ha
        obtain ⟨hbehind, hvalue⟩ := hr _ _ _ _ ha
        exact (ih h).step (hbehind.trans hmid) fun stack => (hstart stack).trans (hvalue _)

theorem Takes.list {r : Reader α} (hr : Takes r) : Takes (list r) := by
  intro n b l rest h
  unfold Json.list at h
  split at h
  · rename_i tail hskip
    split at h
    · cases h
    · rename_i l' mid hitems
      obtain ⟨u, behind, hclose, ⟨⟩⟩ := Reader.bind_eq_ok.1 h
      exact (passesTo_items hr hitems).value (k := .array) hskip (byte_eq_ok (closeBracket_eq ▸ hclose))
  · cases h

theorem passesTo_positional {fields : List (MemberReader σ)} (hfields : ∀ f ∈ fields, Takes f.read)
    {n : Nat} {s s' : σ} (h : positional fields first s n b = .ok (s', rest)) :
    PassesTo .array first b rest := by
  induction fields generalizing first s b with
  | nil =>
    cases h
    exact passesTo_refl _ _ _
  | cons f fields ih =>
    obtain ⟨more, mid, hnext, h⟩ := Reader.bind_eq_ok.1 h
    obtain ⟨hmid, hstart⟩ := nextItem_eq_ok hnext
    cases more with
    | false =>
      cases h
      exact passesTo_of_skipSpace hstart
    | true =>
      obtain ⟨store, behind, hstore, h⟩ := Reader.bind_eq_ok.1 h
      obtain ⟨hbehind, hvalue⟩ := hfields f (by simp) _ _ _ _ hstore
      exact (ih (fun g hg => hfields g (List.mem_cons_of_mem _ hg)) h).step (hbehind.trans hmid)
        fun stack => (hstart stack).trans (hvalue _)

/-- What comes behind a key: a colon and the value. -/
theorem takes_behind_colon {r : Reader α} (hr : Takes r) {f : α → σ} {n : Nat} {s : σ}
    (h : (colon.bind fun _ => r.bind fun a => .pure (f a)) n b = .ok (s, rest)) :
    rest <:+ b ∧ ∀ stack, extent .colon stack b = extent .after stack rest := by
  obtain ⟨u, tail, hcolon, h⟩ := Reader.bind_eq_ok.1 h
  obtain ⟨a, behind, ha, ⟨⟩⟩ := Reader.bind_eq_ok.1 h
  have hskip := byte_eq_ok (colon_eq ▸ hcolon)
  obtain ⟨hbehind, hvalue⟩ := hr _ _ _ _ ha
  refine ⟨hbehind.trans (suffix_of_skipSpace hskip), fun stack => ?_⟩
  rw [← hvalue, ← extent_skipSpace (by simp) b, hskip]
  rfl

theorem passesTo_members {fields : List (MemberReader σ)} (hfields : ∀ f ∈ fields, Takes f.read)
    {fuel n : Nat} {seen : List String} {s s' : σ}
    (h : members fields fuel first seen s n b = .ok (s', rest)) : PassesTo .object first b rest := by
  induction fuel generalizing first seen s b with
  | zero => cases h
  | succ fuel ih =>
    rw [members] at h
    split at h
    · cases h
    · rename_i hnext
      cases h
      exact passesTo_of_skipSpace (nextKey_eq_none hnext)
    · rename_i key mid hnext
      obtain ⟨hmid, -, hstart⟩ := nextKey_eq_some hnext
      split at h
      · split at h
        · cases h
        · rename_i hskip
          obtain ⟨hbehind, hvalue⟩ := takes_behind_colon takes_ignored hskip
          exact (ih h).step (hbehind.trans hmid) fun stack => (hstart stack).trans (hvalue _)
      · rename_i f hf
        split_ifs at h
        split at h
        · cases h
        · rename_i hread
          obtain ⟨hbehind, hvalue⟩ :=
            takes_behind_colon (hfields f (List.mem_of_find?_eq_some hf)) hread
          exact (ih h).step (hbehind.trans hmid) fun stack => (hstart stack).trans (hvalue _)

/-- A check behind the fields takes nothing. -/
theorem checked_eq_ok {body : Reader σ} {close : Reader Unit} (check : σ → Option Fault) {n : Nat} {s : σ}
    (h : (body.bind fun s => match check s with
      | some e => .fail e
      | none => close.bind fun _ => .pure s) n b = .ok (s, rest)) :
    ∃ mid, body n b = .ok (s, mid) ∧ close n mid = .ok ((), rest) := by
  obtain ⟨s', mid, hbody, h⟩ := Reader.bind_eq_ok.1 h
  cases hcheck : check s' with
  | some e =>
    rw [hcheck] at h
    cases h
  | none =>
    rw [hcheck] at h
    obtain ⟨u, behind, hclose, ⟨⟩⟩ := Reader.bind_eq_ok.1 h
    exact ⟨mid, hbody, hclose⟩

theorem takes_checkedRecord (expected : String) {fields : List (MemberReader σ)} (start : σ)
    (check : Bool → σ → Option Fault) (hfields : ∀ f ∈ fields, Takes f.read) :
    Takes (checkedRecord expected fields start check) := by
  intro n b s rest h
  unfold checkedRecord at h
  simp only at h
  split at h
  · rename_i tail hskip
    obtain ⟨mid, hbody, hclose⟩ := checked_eq_ok (check true) h
    exact (passesTo_positional hfields hbody).value (k := .array) hskip
      (byte_eq_ok (closeBracket_eq ▸ hclose))
  · rename_i tail hskip
    obtain ⟨mid, hbody, hclose⟩ := checked_eq_ok (check false) h
    exact (passesTo_members hfields hbody).value (k := .object) hskip
      (byte_eq_ok (closeBrace_eq ▸ hclose))
  · cases h

/-- The machine passes over whatever a reader of values takes. -/
theorem Typed.takes {r : Reader α} (h : Typed r) : Takes r := by
  induction h with
  | string expected => exact takes_stringAs expected
  | boolean => exact takes_boolean
  | integer expected low high => exact takes_integer expected low high
  | nullable _ ih => exact ih.nullable
  | list _ ih => exact ih.list
  | record expected start check _ ih => exact takes_checkedRecord expected start check ih
  | sift _ f ih => exact ih.sift f

end AgentRelay.Json
