import AgentRelay.Proofs.Json.Grammar

/-!
# Written values that other writers may extend

A writer that knows more than the reader puts members of its own into the objects it writes. A document
is a written value that still shows where its objects are and which names their readers know. What can
become of it is a relation: any members with other names may stand in any of its objects, in front of,
between and behind its own, while all the rest stays as it is.

* `Doc` is a document, `Doc.text` its written form.
* `IsForeign` is a member that the reader of an object does not know, `Mixed` the members of an object
  with such among them.
* `Doc.Widens` is the relation. `Doc.widens_text`: nothing has to be added.
-/

namespace AgentRelay.Json

/-- The names under which a field may stand. -/
def MemberReader.names {σ : Type} (f : MemberReader σ) : List String := f.name :: f.aliases

/-- The names that a reader of these fields knows. -/
def namesOf {σ : Type} (fields : List (MemberReader σ)) : List String :=
  fields.flatMap MemberReader.names

/-- A member with a key that is none of the names and with any value, written in any way. -/
inductive IsForeign (names : List String) : Bytes → Prop
  | mk {before body between ahead t after : Bytes} {key : String} (hbefore : IsSpaces before)
      (hbody : IsBody body) (hkey : textOfBody? body = some key) (hnames : key ∉ names)
      (hbetween : IsSpaces between) (hahead : IsSpaces ahead) (h : IsJson .value t)
      (hafter : IsSpaces after) :
      IsForeign names (before ++ 34 :: (body ++ 34 :: (between ++ 58 :: (ahead ++ (t ++ after)))))

/-- The members of an object, with foreign ones anywhere among them. -/
inductive Mixed (names : List String) : List Bytes → List Bytes → Prop
  | nil : Mixed names [] []
  | own {piece : Bytes} {own pieces : List Bytes} (h : Mixed names own pieces) :
      Mixed names (piece :: own) (piece :: pieces)
  | foreign {piece : Bytes} {own pieces : List Bytes} (hforeign : IsForeign names piece)
      (h : Mixed names own pieces) : Mixed names own (piece :: pieces)

theorem Mixed.refl (names : List String) (own : List Bytes) : Mixed names own own := by
  induction own with
  | nil => exact .nil
  | cons piece own ih => exact .own ih

/-- A written value whose objects can be told apart from the rest. -/
inductive Doc
  /-- A value that stays as it is. -/
  | value (text : Bytes)
  | list (items : List Doc)
  /-- An object with its members, and the names that its reader knows. -/
  | object (names : List String) (members : List (String × Doc))

namespace Doc

mutual

/-- The written form. -/
def text : Doc → Bytes
  | .value t => t
  | .list items => array (texts items)
  | .object _ members => Json.object (pieces members)

/-- The written forms of items. -/
def texts : List Doc → List Bytes
  | [] => []
  | d :: items => d.text :: texts items

/-- The written forms of members. -/
def pieces : List (String × Doc) → List Bytes
  | [] => []
  | (key, d) :: members => member key d.text :: pieces members

end

@[simp] theorem texts_map {α : Type} (doc : α → Doc) (l : List α) :
    texts (l.map doc) = l.map fun a => (doc a).text := by
  induction l with
  | nil => rfl
  | cons a l ih => simp [texts, ih]

@[simp] theorem pieces_append (l m : List (String × Doc)) :
    pieces (l ++ m) = pieces l ++ pieces m := by
  induction l with
  | nil => rfl
  | cons a l ih => simp [pieces, ih]

/-- A member that is left out when there is no value. -/
def optional {α : Type} (key : String) (doc : α → Doc) : Option α → List (String × Doc)
  | none => []
  | some a => [(key, doc a)]

/-- A member that is left out when the text is empty. -/
def unlessEmpty (key : String) (s : String) : List (String × Doc) :=
  if s.isEmpty then [] else [(key, .value (quote s))]

/-- A member that is left out when the list is empty. -/
def unlessNil {α : Type} (key : String) (doc : α → Doc) (l : List α) : List (String × Doc) :=
  if l.isEmpty then [] else [(key, .list (l.map doc))]

@[simp] theorem pieces_optional {α : Type} (key : String) (doc : α → Doc) (a : Option α) :
    pieces (optional key doc a) = Json.optional key (fun a => (doc a).text) a := by
  cases a <;> rfl

@[simp] theorem pieces_unlessEmpty (key s : String) :
    pieces (unlessEmpty key s) = Json.unlessEmpty key s := by
  unfold unlessEmpty Json.unlessEmpty
  split <;> rfl

@[simp] theorem pieces_unlessNil {α : Type} (key : String) (doc : α → Doc) (l : List α) :
    pieces (unlessNil key doc l) = Json.unlessNil key (fun a => (doc a).text) l := by
  unfold unlessNil Json.unlessNil
  split <;> simp [pieces, text]

mutual

/-- What a writer that knows more may write for the document. -/
inductive Widens : Doc → Bytes → Prop
  | value (t : Bytes) : Widens (.value t) t
  | list {items : List Doc} {ts : List Bytes} (h : List.Forall₂ Widens items ts) :
      Widens (.list items) (array ts)
  | object {names : List String} {members : List (String × Doc)} {own pieces : List Bytes}
      (h : List.Forall₂ WidensMember members own) (hmixed : Mixed names own pieces) :
      Widens (.object names members) (Json.object pieces)

/-- What it may write for a member. -/
inductive WidensMember : String × Doc → Bytes → Prop
  | mk {key : String} {d : Doc} {t : Bytes} (h : Widens d t) : WidensMember (key, d) (member key t)

end

theorem widens_value_iff {t u : Bytes} : (Doc.value t).Widens u ↔ u = t := by
  refine ⟨fun h => ?_, fun h => h ▸ .value t⟩
  cases h
  rfl

theorem widens_list_iff {items : List Doc} {t : Bytes} :
    (Doc.list items).Widens t ↔ ∃ ts, List.Forall₂ Widens items ts ∧ t = array ts := by
  refine ⟨fun h => ?_, fun ⟨ts, h, ht⟩ => ht ▸ .list h⟩
  cases h with
  | list h => exact ⟨_, h, rfl⟩

theorem widens_object_iff {names : List String} {members : List (String × Doc)} {t : Bytes} :
    (Doc.object names members).Widens t ↔
      ∃ own pieces, List.Forall₂ WidensMember members own ∧ Mixed names own pieces ∧
        t = Json.object pieces := by
  refine ⟨fun h => ?_, fun ⟨own, pieces, h, hmixed, ht⟩ => ht ▸ .object h hmixed⟩
  cases h with
  | object h hmixed => exact ⟨_, _, h, hmixed, rfl⟩

mutual

/-- Nothing has to be added. -/
theorem widens_text : ∀ d : Doc, d.Widens d.text
  | .value t => .value t
  | .list items => .list (widens_texts items)
  | .object _ members => .object (widensMember_pieces members) (.refl _ _)

theorem widens_texts : ∀ items : List Doc, List.Forall₂ Widens items (texts items)
  | [] => .nil
  | d :: items => .cons d.widens_text (widens_texts items)

theorem widensMember_pieces :
    ∀ members : List (String × Doc), List.Forall₂ WidensMember members (pieces members)
  | [] => .nil
  | (_, d) :: members => .cons ⟨d.widens_text⟩ (widensMember_pieces members)

end

end Doc
end AgentRelay.Json
