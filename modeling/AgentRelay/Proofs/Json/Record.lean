import AgentRelay.Proofs.Json.Doc

/-!
# Written objects are read back

An object is read member by member. A member moves the reading from the names seen and the value
read so far to new ones; the members of an object make a chain of such moves, and the value at its
end is what is read. A member that the reader does not know moves nothing, so the chain reaches the same
end when there are such members in it.

* `Moves` is one member, `Chain` the members of an object in a row, `reads_record` the object.
* `ReadsDoc r d a` says that the reader `r` takes the document `d` for `a`, whatever another writer adds.
* `Fills` is a chain from the start that forgets which of the names in `done` have been seen, so that
  a member may be left out. It grows by `Fills.field`, `Fills.optional`, `Fills.unlessEmpty` and
  `Fills.unlessNil`, the ways to write a field.
-/

namespace AgentRelay.Json

variable {σ α : Type} {fields : List (MemberReader σ)}

/-- The member moves the reading of an object, whatever closes it. -/
def Moves (fields : List (MemberReader σ)) (piece : Bytes) (p q : List String × σ) : Prop :=
  (∃ tail, skipSpace piece = 34 :: tail) ∧
  ∀ n fuel rest, piece.length ≤ n → Closes rest →
    members fields (fuel + 1) true p.1 p.2 n (piece ++ rest) =
      members fields fuel false q.1 q.2 n rest

/-- Members in a row. -/
inductive Chain (fields : List (MemberReader σ)) :
    List Bytes → List String × σ → List String × σ → Prop
  | nil (p : List String × σ) : Chain fields [] p p
  | cons {piece : Bytes} {pieces : List Bytes} {p q r : List String × σ}
      (first : Moves fields piece p q) (rest : Chain fields pieces q r) :
      Chain fields (piece :: pieces) p r

theorem Chain.append {ts us : List Bytes} {p q r : List String × σ} (h : Chain fields ts p q)
    (h' : Chain fields us q r) : Chain fields (ts ++ us) p r := by
  induction h with
  | nil => exact h'
  | cons first _ ih => exact .cons first (ih h')

/-! ### The loop over the members -/

theorem nextKey_quote (n : Nat) (b : Bytes) : nextKey true n (34 :: b) = (stringRest.map some) n b := by
  rw [nextKey, skipSpace_of_not_isSpace (by decide)]
  rfl

theorem nextKey_spaces (first : Bool) (n : Nat) {t : Bytes} (h : IsSpaces t) (b : Bytes) :
    nextKey first n (t ++ b) = nextKey first n b := by
  simp only [nextKey, skipSpace_append h]

/-- Behind a comma the loop goes on as at its start. -/
theorem nextKey_comma (n : Nat) {b tail : Bytes} (h : skipSpace b = 34 :: tail) :
    nextKey false n (44 :: b) = nextKey true n b := by
  have hcomma : skipSpace (44 :: b) = 44 :: b := skipSpace_of_not_isSpace (by decide) b
  simp [nextKey, hcomma, h]

theorem members_spaces (fuel : Nat) (first : Bool) (p : List String × σ) (n : Nat) {t : Bytes}
    (h : IsSpaces t) (b : Bytes) :
    members fields fuel first p.1 p.2 n (t ++ b) = members fields fuel first p.1 p.2 n b := by
  cases fuel with
  | zero => rfl
  | succ fuel => rw [members, nextKey_spaces first n h, ← members.eq_2]

theorem members_comma (fuel : Nat) (p : List String × σ) (n : Nat) {b tail : Bytes}
    (h : skipSpace b = 34 :: tail) :
    members fields fuel false p.1 p.2 n (44 :: b) = members fields fuel true p.1 p.2 n b := by
  cases fuel with
  | zero => rfl
  | succ fuel => rw [members, nextKey_comma n h, ← members.eq_2]

theorem members_brace (fuel : Nat) (first : Bool) (p : List String × σ) (n : Nat) (rest : Bytes) :
    members fields (fuel + 1) first p.1 p.2 n (125 :: rest) = .ok (p.2, 125 :: rest) := by
  rw [members, nextKey, skipSpace_of_not_isSpace (by decide)]
  rfl

theorem Chain.followers {pieces : List Bytes} {p q : List String × σ} (h : Chain fields pieces p q)
    {n fuel : Nat} (hn : ∀ t ∈ pieces, t.length ≤ n) (hfuel : pieces.length < fuel) (rest : Bytes) :
    members fields fuel false p.1 p.2 n (followers pieces ++ 125 :: rest) = .ok (q.2, 125 :: rest) := by
  induction h generalizing fuel with
  | nil p =>
    obtain ⟨fuel, rfl⟩ := Nat.exists_eq_add_of_lt hfuel
    exact members_brace _ false p n rest
  | @cons piece pieces p q r first _ ih =>
    obtain ⟨fuel, rfl⟩ : ∃ k, fuel = k + 1 := ⟨fuel - 1, by simp at hfuel; omega⟩
    obtain ⟨⟨tail, hquote⟩, hmove⟩ := first
    have htail := ih (fun u hu => hn u (List.mem_cons_of_mem _ hu)) (by simpa using hfuel)
    have hstep := hmove n fuel (Json.followers pieces ++ 125 :: rest) (hn _ (by simp))
      (closes_followers pieces (closes_brace rest))
    rw [followers_cons, List.cons_append, List.append_assoc,
      members_comma _ p n (skipSpace_append_cons hquote _)]
    exact hstep.trans htail

/-- The members of an object are read up to its closing brace. -/
theorem Chain.members {pieces : List Bytes} {p q : List String × σ} (h : Chain fields pieces p q)
    {n fuel : Nat} (hn : ∀ t ∈ pieces, t.length ≤ n) (hfuel : pieces.length < fuel) (rest : Bytes) :
    members fields fuel true p.1 p.2 n (commas pieces ++ 125 :: rest) = .ok (q.2, 125 :: rest) := by
  cases h with
  | nil =>
    obtain ⟨fuel, rfl⟩ := Nat.exists_eq_add_of_lt hfuel
    exact members_brace _ true p n rest
  | @cons piece pieces _ q r first h =>
    obtain ⟨fuel, rfl⟩ : ∃ k, fuel = k + 1 := ⟨fuel - 1, by simp at hfuel; omega⟩
    have htail := h.followers (fun u hu => hn u (List.mem_cons_of_mem _ hu)) (by simpa using hfuel) rest
    have hstep := first.2 n fuel (Json.followers pieces ++ 125 :: rest) (hn _ (by simp))
      (closes_followers pieces (closes_brace rest))
    rw [commas_cons, List.append_assoc]
    exact hstep.trans htail

/-- A written object is read when its check has no objection. -/
theorem reads_checkedRecord (expected : String) {start : σ} {check : Bool → σ → Option Fault}
    {pieces : List Bytes} {seen : List String} {s : σ} (h : Chain fields pieces ([], start) (seen, s))
    (hcheck : check false s = none) :
    Reads (checkedRecord expected fields start check) (object pieces) s := by
  intro n rest hn _
  have hlength : (commas pieces).length + 2 ≤ n := by
    simp [object] at hn
    omega
  have hfuel : pieces.length < n + 1 := by
    have := count_le_commas pieces
    omega
  have hbound : ∀ t ∈ pieces, t.length ≤ n := fun t ht => by
    have := length_le_commas ht
    omega
  -- behind the opening brace stand the members, and behind them the closing one
  have hmembers := h.members hbound hfuel rest
  have hclose : closeBrace n (125 :: rest) = .ok ((), rest) := by
    rw [closeBrace, skipSpace_of_not_isSpace (by decide)]
    rfl
  have htext : object pieces ++ rest = 123 :: (commas pieces ++ 125 :: rest) := by simp [object]
  rw [htext, checkedRecord, skipSpace_of_not_isSpace (by decide)]
  simp only [bind, Reader.bind, hmembers, hcheck, hclose]
  rfl

theorem reads_record (expected : String) {start : σ} {pieces : List Bytes} {seen : List String}
    {s : σ} (h : Chain fields pieces ([], start) (seen, s)) :
    Reads (record expected fields start) (object pieces) s :=
  reads_checkedRecord expected h rfl

/-! ### Fields -/

theorem colon_append (n : Nat) (b : Bytes) : colon n (58 :: b) = .ok ((), b) := by
  rw [colon, skipSpace_of_not_isSpace (by decide)]
  rfl

/-- The value of a field is read and stored. -/
theorem readMember_field (name : String) {r : Reader α} (store : α → σ → σ) {t : Bytes} {a : α}
    (h : Reads r t a) (s : σ) {n : Nat} (hn : t.length ≤ n) {rest : Bytes} (hrest : Closes rest) :
    readMember (field name r store) s n (58 :: (t ++ rest)) = .ok (store a s, rest) := by
  have hread := h.map store n rest hn hrest
  simp only [readMember, bind, Reader.bind, colon_append, field, hread]
  rfl

/-- A member that names a field not seen before moves the reading. -/
theorem moves_field {name : String} {r : Reader α} {store : α → σ → σ} {t : Bytes} {a : α}
    (hfield : MemberReader.find? fields name = some (field name r store)) (h : Reads r t a)
    {seen : List String} (hseen : name ∉ seen) (s : σ) :
    Moves fields (member name t) (seen, s) (name :: seen, store a s) := by
  refine ⟨⟨escape (Bytes.utf8 name) ++ 34 :: 58 :: t, ?_⟩, ?_⟩
  · have hquote : member name t = 34 :: (escape (Bytes.utf8 name) ++ 34 :: 58 :: t) := by
      simp [member, quote]
    rw [hquote, skipSpace_of_not_isSpace (by decide)]
  intro n fuel rest hn hrest
  have htext : member name t ++ rest = 34 :: (escape (Bytes.utf8 name) ++ 34 :: 58 :: (t ++ rest)) := by
    simp [member, quote]
  have hkey : (stringRest.map some) n (escape (Bytes.utf8 name) ++ 34 :: 58 :: (t ++ rest)) =
      .ok (some name, 58 :: (t ++ rest)) := by
    simp only [Reader.map, Reader.bind, stringRest_escape, Reader.pure]
  have hvalue := readMember_field name store h s (n := n) (by simp [member] at hn; omega) hrest
  -- a name that was seen before would be refused here
  have hnew : seen.contains (field name r store).name = false := by simpa [field] using hseen
  rw [htext, members, nextKey_quote, hkey]
  simp only [hfield, hnew, hvalue]
  rfl

/-! ### Members that the reader does not know -/

theorem find?_eq_none {key : String} (h : key ∉ namesOf fields) :
    MemberReader.find? fields key = none := by
  refine List.find?_eq_none.2 fun f hf hkey => h ?_
  rw [namesOf, List.mem_flatMap]
  simp only [Bool.or_eq_true, beq_iff_eq, List.contains_iff_mem] at hkey
  exact ⟨f, hf, List.mem_cons.2 (hkey.imp Eq.symm id)⟩

/-- A member that the reader does not know moves nothing. -/
theorem moves_foreign {piece : Bytes} (h : IsForeign (namesOf fields) piece) (p : List String × σ) :
    Moves fields piece p p := by
  obtain ⟨hbefore, hbody, hkey, hnames, hbetween, hahead, ht, hafter⟩ := h
  rename_i before body between ahead t after key
  refine ⟨⟨_, (skipSpace_append hbefore _).trans (skipSpace_of_not_isSpace (by decide) _)⟩, ?_⟩
  intro n fuel rest _ hrest
  have hname : (stringRest.map some) n (body ++ 34 :: (between ++ 58 :: (ahead ++ (t ++ (after ++ rest)))))
      = .ok (some key, between ++ 58 :: (ahead ++ (t ++ (after ++ rest)))) := by
    simp only [Reader.map, Reader.bind, stringRest, hbody.body?, hkey, Reader.pure]
  have hcolon : colon n (between ++ 58 :: (ahead ++ (t ++ (after ++ rest)))) =
      .ok ((), ahead ++ (t ++ (after ++ rest))) := by
    rw [colon, skipSpace_append hbetween, skipSpace_of_not_isSpace (by decide)]
    rfl
  have hvalue : skipMember p.2 n (between ++ 58 :: (ahead ++ (t ++ (after ++ rest)))) =
      .ok (p.2, after ++ rest) := by
    simp only [skipMember, bind, Reader.bind, hcolon, ht.ignored hahead n (hafter.bounds hrest.bounds)]
    rfl
  simp only [List.append_assoc, List.cons_append]
  rw [members, nextKey_spaces true n hbefore, nextKey_quote, hname]
  simp only [find?_eq_none hnames, hvalue]
  exact members_spaces fuel false p n hafter rest

/-- So a chain ends where it ended when such members are put into it. -/
theorem Chain.mixed {own pieces : List Bytes} {p q : List String × σ} (h : Chain fields own p q)
    (hmixed : Mixed (namesOf fields) own pieces) : Chain fields pieces p q := by
  induction hmixed generalizing p with
  | nil => exact h
  | own _ ih =>
    cases h with
    | cons first rest => exact .cons first (ih rest)
  | foreign hforeign _ ih => exact .cons (moves_foreign hforeign p) (ih h)

/-! ### Documents -/

/-- The reader takes the document for the value, with anything added to it. -/
def ReadsDoc (r : Reader α) (d : Doc) (a : α) : Prop := ∀ t, d.Widens t → Reads r t a

/-- The document starts as `Opens` says, with anything added to it. -/
def OpensDoc (d : Doc) : Prop := ∀ t, d.Widens t → Opens t

theorem ReadsDoc.reads {r : Reader α} {d : Doc} {a : α} (h : ReadsDoc r d a) : Reads r d.text a :=
  h d.text d.widens_text

/-- Nothing is added to a value. -/
theorem Reads.doc {r : Reader α} {t : Bytes} {a : α} (h : Reads r t a) : ReadsDoc r (.value t) a :=
  fun _ hu => Doc.widens_value_iff.1 hu ▸ h

theorem Opens.doc {t : Bytes} (h : Opens t) : OpensDoc (.value t) :=
  fun _ hu => Doc.widens_value_iff.1 hu ▸ h

theorem opensDoc_object (names : List String) (members : List (String × Doc)) :
    OpensDoc (.object names members) := by
  intro t ht
  obtain ⟨own, pieces, -, -, rfl⟩ := Doc.widens_object_iff.1 ht
  exact opens_object pieces

theorem ReadsDoc.nullable {r : Reader α} {d : Doc} {a : α} (h : ReadsDoc r d a) (hd : OpensDoc d) :
    ReadsDoc (nullable r) d (some a) := fun t ht => reads_nullable (h t ht) (hd t ht)

theorem readsDoc_list {r : Reader α} {doc : α → Doc} {l : List α}
    (h : ∀ a ∈ l, ReadsDoc r (doc a) a ∧ OpensDoc (doc a)) :
    ReadsDoc (list r) (.list (l.map doc)) l := by
  intro t ht
  obtain ⟨ts, hts, rfl⟩ := Doc.widens_list_iff.1 ht
  rw [List.forall₂_map_left_iff] at hts
  clear ht
  refine reads_list ?_
  induction hts with
  | nil => exact .nil
  | cons hu _ ih =>
    obtain ⟨hread, hopens⟩ := h _ List.mem_cons_self
    exact .cons ⟨hread _ hu, hopens _ hu⟩ (ih fun a ha => h a (List.mem_cons_of_mem _ ha))

theorem exists_of_forall₂_concat {β γ : Type} {R : β → γ → Prop} {l : List β} {b : β} {m : List γ}
    (h : List.Forall₂ R (l ++ [b]) m) : ∃ k c, m = k ++ [c] ∧ List.Forall₂ R l k ∧ R b c := by
  have hfirst := (List.forall₂_take_append m l [b] h.flip).flip
  have hlast := List.forall₂_drop_append m l [b] h.flip
  generalize hdrop : m.drop l.length = last at hlast
  cases hlast with
  | cons hc hnil =>
    cases hnil
    exact ⟨_, _, by rw [← hdrop, List.take_append_drop], hfirst, hc⟩

/-- Members that turn `start` into `s`, each of them naming one of the fields in `done`. -/
def Fills (fields : List (MemberReader σ)) (start : σ) (members : List (String × Doc))
    (done : List String) (s : σ) : Prop :=
  ∃ seen, seen ⊆ done ∧
    ∀ own, List.Forall₂ Doc.WidensMember members own → Chain fields own ([], start) (seen, s)

namespace Fills

variable {start s : σ} {members : List (String × Doc)} {done : List String}

theorem nil (fields : List (MemberReader σ)) (start : σ) : Fills fields start [] [] start := by
  refine ⟨[], List.Subset.refl _, ?_⟩
  rintro _ ⟨⟩
  exact .nil _

/-- A field may be left out. -/
theorem skip (h : Fills fields start members done s) (name : String) :
    Fills fields start (members ++ []) (name :: done) s := by
  obtain ⟨seen, hseen, hchain⟩ := h
  rw [List.append_nil]
  exact ⟨seen, fun _ hx => List.mem_cons_of_mem _ (hseen hx), hchain⟩

/-- A field that is always written. -/
theorem field (h : Fills fields start members done s) (name : String) {r : Reader α}
    {store : α → σ → σ} {d : Doc} {a : α}
    (hfield : MemberReader.find? fields name = some (Json.field name r store))
    (hread : ReadsDoc r d a) (hdone : name ∉ done) :
    Fills fields start (members ++ [(name, d)]) (name :: done) (store a s) := by
  obtain ⟨seen, hseen, hchain⟩ := h
  refine ⟨name :: seen, List.cons_subset_cons name hseen, fun own hown => ?_⟩
  obtain ⟨first, _, rfl, hfirst, ⟨ht⟩⟩ := exists_of_forall₂_concat hown
  have hmove := moves_field hfield (hread _ ht) (fun hmem => hdone (hseen hmem)) s
  exact (hchain first hfirst).append (.cons hmove (.nil _))

/-- A field that is left out when it has no value. -/
theorem optional (h : Fills fields start members done s) (name : String) {r : Reader α}
    {store : Option α → σ → σ} {doc : α → Doc} {a : Option α}
    (hfield : MemberReader.find? fields name = some (Json.field name (nullable r) store))
    (hread : ∀ x ∈ a, ReadsDoc r (doc x) x ∧ OpensDoc (doc x)) (hdone : name ∉ done)
    (hnone : store none s = s) :
    Fills fields start (members ++ Doc.optional name doc a) (name :: done) (store a s) := by
  cases a with
  | none =>
    rw [hnone]
    exact h.skip name
  | some x =>
    obtain ⟨hx, hopens⟩ := hread x rfl
    exact h.field name hfield (hx.nullable hopens) hdone

/-- A field that is left out when its text is empty. -/
theorem unlessEmpty (h : Fills fields start members done s) (name : String) {store : String → σ → σ}
    (a : String) (hfield : MemberReader.find? fields name = some (Json.field name string store))
    (hdone : name ∉ done) (hempty : store "" s = s) :
    Fills fields start (members ++ Doc.unlessEmpty name a) (name :: done) (store a s) := by
  rw [Doc.unlessEmpty]
  split
  · rename_i ha
    rw [String.isEmpty_iff.1 ha, hempty]
    exact h.skip name
  · exact h.field name hfield (reads_string a).doc hdone

/-- A field that is left out when its list is empty. -/
theorem unlessNil (h : Fills fields start members done s) (name : String) {r : Reader α}
    {store : List α → σ → σ} {doc : α → Doc} {l : List α}
    (hfield : MemberReader.find? fields name = some (Json.field name (list r) store))
    (hread : ∀ x ∈ l, ReadsDoc r (doc x) x ∧ OpensDoc (doc x)) (hdone : name ∉ done)
    (hnil : store [] s = s) :
    Fills fields start (members ++ Doc.unlessNil name doc l) (name :: done) (store l s) := by
  rw [Doc.unlessNil]
  split
  · rename_i hl
    rw [List.isEmpty_iff.1 hl, hnil]
    exact h.skip name
  · exact h.field name hfield (readsDoc_list hread) hdone

/-- A written object is read as what its members fill, and so is what another writer makes of it. -/
theorem reads (h : Fills fields start members done s) (expected : String) :
    ReadsDoc (record expected fields start) (.object (namesOf fields) members) s := by
  obtain ⟨seen, -, hchain⟩ := h
  intro t ht
  obtain ⟨own, pieces, hown, hmixed, rfl⟩ := Doc.widens_object_iff.1 ht
  exact reads_record expected ((hchain own hown).mixed hmixed)

end Fills
end AgentRelay.Json
