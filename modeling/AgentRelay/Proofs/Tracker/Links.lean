import AgentRelay.Proofs.Text.Trim
import AgentRelay.Tracker.Client
import Mathlib.Data.List.Nodup
import Mathlib.Data.List.Range

/-!
# Which links are shown

Links are gone through in order, together with the URLs that were met already. A link is shown when its URL is
none of them. So the links that are shown can be told by their places alone: a place is shown when it has a URL
that no earlier place has, and nothing that follows later changes that.

* `Opens`: a place with a new URL. `openings` are these places in order, and `normalizedUrls_eq` says that they
  are what is shown.
* `freshUrls_append` is where the URLs that were met are carried on to the links that follow.
* `normalizedUrls_keeps_first` puts together what is shown.
-/

namespace AgentRelay.Tracker

variable {urls more : List ExternalUrl} {seen seen' : List String} {u : ExternalUrl} {i : Nat}

/-- A link without white space around its label and its URL. -/
def trimmed (u : ExternalUrl) : ExternalUrl := ⟨Text.trim u.label, Text.trim u.url⟩

/-- The URLs of links, without white space around them. -/
def urlsOf (urls : List ExternalUrl) : List String := urls.map fun u => Text.trim u.url

theorem urlsOf_cons (u : ExternalUrl) (urls : List ExternalUrl) :
    urlsOf (u :: urls) = Text.trim u.url :: urlsOf urls := rfl

/-- At this place stands a link with a URL that no earlier link has. -/
def Opens (urls : List ExternalUrl) (i : Nat) : Prop :=
  ∃ u ∈ urls[i]?, Text.trim u.url ≠ "" ∧ ∀ j < i, ∀ v ∈ urls[j]?, Text.trim v.url ≠ Text.trim u.url

instance (urls : List ExternalUrl) : DecidablePred (Opens urls) := fun _ => inferInstanceAs (Decidable (∃ _ ∈ _, _))

/-- The places of new URLs, in order. -/
def openings (urls : List ExternalUrl) : List Nat := (List.range urls.length).filter (Opens urls ·)

/-! ### One link after the other -/

theorem freshUrls_cons (seen : List String) (u : ExternalUrl) (urls : List ExternalUrl) :
    freshUrls seen (u :: urls) =
      if Text.trim u.url = "" ∨ Text.trim u.url ∈ seen then freshUrls seen urls
      else trimmed u :: freshUrls (Text.trim u.url :: seen) urls := by
  rw [freshUrls]
  by_cases hblank : Text.isBlankText u.url = true
  · rw [Text.filled?_eq_none_iff.2 hblank, if_pos (.inl (Text.trim_eq_empty_iff.2 hblank))]
  · have hfilled : Text.filled? u.url = some (Text.trim u.url) := if_neg hblank
    have hne : Text.trim u.url ≠ "" := mt Text.trim_eq_empty_iff.1 hblank
    simp only [hfilled, hne, false_or, List.contains_iff_mem, trimmed]

/-- It does not matter in which order URLs were met, how often, and how many blank ones. -/
theorem freshUrls_congr (h : ∀ url, url ≠ "" → (url ∈ seen ↔ url ∈ seen')) (urls : List ExternalUrl) :
    freshUrls seen urls = freshUrls seen' urls := by
  induction urls generalizing seen seen' with
  | nil => rfl
  | cons u urls ih =>
    have hmet : (Text.trim u.url = "" ∨ Text.trim u.url ∈ seen) ↔
        (Text.trim u.url = "" ∨ Text.trim u.url ∈ seen') := or_congr_right' (h _)
    have hnext : ∀ url, url ≠ "" → (url ∈ Text.trim u.url :: seen ↔ url ∈ Text.trim u.url :: seen') := by
      intro url hurl
      rw [List.mem_cons, List.mem_cons, h url hurl]
    rw [freshUrls_cons, freshUrls_cons, ih h, ih hnext]
    simp only [hmet]

/-- The links that follow go on with the URLs that were met. -/
theorem freshUrls_append (seen : List String) (urls more : List ExternalUrl) :
    freshUrls seen (urls ++ more) = freshUrls seen urls ++ freshUrls (urlsOf urls ++ seen) more := by
  induction urls generalizing seen with
  | nil => rfl
  | cons u urls ih =>
    rw [List.cons_append, freshUrls_cons, freshUrls_cons, ih, ih]
    split_ifs with hmet
    · rw [freshUrls_congr (fun url hurl => ?_) more]
      rw [urlsOf_cons, List.cons_append, List.mem_cons, or_iff_right_of_imp]
      rintro rfl
      exact List.mem_append_right _ (hmet.resolve_left hurl)
    · rw [List.cons_append, freshUrls_congr (fun url _ => ?_) more]
      rw [urlsOf_cons, List.cons_append, List.mem_cons, List.mem_append, List.mem_append, List.mem_cons]
      exact or_left_comm

/-- Nothing is shown of links without a URL or with one that was met. -/
theorem freshUrls_eq_nil (h : ∀ u ∈ urls, Text.trim u.url = "" ∨ Text.trim u.url ∈ seen) :
    freshUrls seen urls = [] := by
  induction urls with
  | nil => rfl
  | cons u urls ih =>
    obtain ⟨hu, hurls⟩ := List.forall_mem_cons.1 h
    rw [freshUrls_cons, if_pos hu, ih hurls]

/-! ### What is shown -/

/-- The URLs that are shown are those of the links, without the blank ones and those that were met. -/
theorem mem_map_freshUrls {url : String} :
    url ∈ (freshUrls seen urls).map (·.url) ↔ url ∈ urlsOf urls ∧ url ≠ "" ∧ url ∉ seen := by
  induction urls generalizing seen with
  | nil => simp [freshUrls, urlsOf]
  | cons u urls ih =>
    rw [freshUrls_cons, urlsOf_cons, List.mem_cons]
    split_ifs with hmet
    · rw [ih]
      refine and_congr_left fun ⟨hne, hnew⟩ => (or_iff_right ?_).symm
      rintro rfl
      exact hmet.elim hne hnew
    · rw [List.map_cons, List.mem_cons, ih, trimmed]
      obtain ⟨hne, hnew⟩ := not_or.1 hmet
      by_cases hurl : url = Text.trim u.url
      · simp [hurl, hne, hnew]
      · simp [hurl]

theorem nodup_map_freshUrls (seen : List String) (urls : List ExternalUrl) :
    ((freshUrls seen urls).map (·.url)).Nodup := by
  induction urls generalizing seen with
  | nil => exact List.nodup_nil
  | cons u urls ih =>
    rw [freshUrls_cons]
    split_ifs
    · exact ih seen
    · refine List.nodup_cons.2 ⟨fun h => ?_, ih _⟩
      exact (mem_map_freshUrls.1 h).2.2 List.mem_cons_self

theorem trimmed_trimmed (u : ExternalUrl) : trimmed (trimmed u) = trimmed u := by
  simp only [trimmed, Text.trim_trim]

theorem trimmed_of_mem_freshUrls (h : u ∈ freshUrls seen urls) : trimmed u = u := by
  induction urls generalizing seen with
  | nil => cases h
  | cons v urls ih =>
    rw [freshUrls_cons] at h
    split_ifs at h
    · exact ih h
    · rcases List.mem_cons.1 h with rfl | h
      · exact trimmed_trimmed v
      · exact ih h

/-- Trimmed links with URLs of their own are all shown. -/
theorem freshUrls_eq_self (htrimmed : ∀ u ∈ urls, trimmed u = u)
    (hnew : ∀ url ∈ urls.map (·.url), url ≠ "" ∧ url ∉ seen) (hnodup : (urls.map (·.url)).Nodup) :
    freshUrls seen urls = urls := by
  induction urls generalizing seen with
  | nil => rfl
  | cons u urls ih =>
    obtain ⟨hu, htrimmed⟩ := List.forall_mem_cons.1 htrimmed
    rw [List.map_cons] at hnew hnodup
    obtain ⟨hother, hnodup⟩ := List.nodup_cons.1 hnodup
    obtain ⟨⟨hne, hnotMem⟩, hnew⟩ := List.forall_mem_cons.1 hnew
    have hurl : Text.trim u.url = u.url := congrArg (·.url) hu
    rw [freshUrls_cons, hurl, if_neg (not_or.2 ⟨hne, hnotMem⟩), hu, ih htrimmed ?_ hnodup]
    intro url hmem
    obtain ⟨hne, hnotMem⟩ := hnew url hmem
    refine ⟨hne, List.not_mem_cons_of_ne_of_not_mem ?_ hnotMem⟩
    rintro rfl
    exact hother hmem

/-! ### Places -/

/-- What follows does not matter. -/
theorem opens_append (h : i < urls.length) (more : List ExternalUrl) : Opens (urls ++ more) i ↔ Opens urls i := by
  have hplace : ∀ j ≤ i, (urls ++ more)[j]? = urls[j]? := fun j hj =>
    List.getElem?_append_left (Nat.lt_of_le_of_lt hj h)
  unfold Opens
  rw [hplace i (Nat.le_refl i)]
  refine exists_congr fun u => and_congr_right fun _ => and_congr_right fun _ => ?_
  exact forall₂_congr fun j hj => by rw [hplace j (Nat.le_of_lt hj)]

/-- A link at the end opens a URL when it has one that is none of the others. -/
theorem opens_length : Opens (urls ++ [u]) urls.length ↔ ¬ (Text.trim u.url = "" ∨ Text.trim u.url ∈ urlsOf urls) := by
  have hmem : Text.trim u.url ∈ urlsOf urls ↔
      ∃ j < urls.length, ∃ v ∈ (urls ++ [u])[j]?, Text.trim v.url = Text.trim u.url := by
    rw [urlsOf, List.mem_map]
    constructor
    · rintro ⟨v, hv, hsame⟩
      obtain ⟨j, hj, rfl⟩ := List.getElem_of_mem hv
      exact ⟨j, hj, urls[j], by rw [List.getElem?_append_left hj]; exact List.getElem?_eq_getElem hj, hsame⟩
    · rintro ⟨j, hj, v, hv, hsame⟩
      rw [List.getElem?_append_left hj] at hv
      exact ⟨v, List.mem_of_getElem? hv, hsame⟩
  rw [hmem, Opens, List.getElem?_concat_length]
  simp

theorem openings_concat : openings (urls ++ [u]) =
    openings urls ++ if Text.trim u.url = "" ∨ Text.trim u.url ∈ urlsOf urls then [] else [urls.length] := by
  have hfront : (List.range urls.length).filter (Opens (urls ++ [u]) ·) = openings urls :=
    List.filter_congr fun i hi => decide_eq_decide.2 (opens_append (List.mem_range.1 hi) [u])
  rw [openings, List.length_append, List.length_singleton, List.range_succ, List.filter_append, hfront]
  congr 1
  rw [List.filter_singleton]
  simp only [opens_length, decide_not]
  split_ifs <;> simp_all

/-- The links that are shown are the trimmed ones at the places of new URLs. -/
theorem normalizedUrls_eq (urls : List ExternalUrl) :
    normalizedUrls urls = (openings urls).filterMap fun i => urls[i]?.map trimmed := by
  induction urls using List.reverseRecOn with
  | nil => rfl
  | append_singleton urls u ih =>
    have hfront : (openings urls).filterMap (fun i => (urls ++ [u])[i]?.map trimmed) =
        (openings urls).filterMap fun i => urls[i]?.map trimmed := by
      refine List.filterMap_congr fun i hi => ?_
      rw [List.getElem?_append_left (List.mem_range.1 (List.mem_filter.1 hi).1)]
    rw [normalizedUrls, freshUrls_append, ← normalizedUrls, ih, openings_concat, List.filterMap_append, hfront,
      List.append_nil, freshUrls_cons]
    split_ifs <;> simp [freshUrls]

/-- What is shown of links: the first one of each URL. -/
structure KeepsFirst (urls shown : List ExternalUrl) : Prop where
  /-- In order, the links that open a URL. -/
  at_openings : shown = (openings urls).filterMap fun i => urls[i]?.map trimmed
  /-- Every URL is shown, and none is made up. -/
  mem_urls_iff : ∀ url, url ∈ shown.map (·.url) ↔ url ≠ "" ∧ ∃ u ∈ urls, Text.trim u.url = url
  nodup : (shown.map (·.url)).Nodup
  all_trimmed : ∀ u ∈ shown, Text.trim u.label = u.label ∧ Text.trim u.url = u.url ∧ u.url ≠ ""
  /-- Showing it again changes nothing. -/
  again : normalizedUrls shown = shown
  /-- Neither do links at the end that have no URL or one that is there already. -/
  more : ∀ more, (∀ u ∈ more, Text.trim u.url = "" ∨ ∃ v ∈ urls, Text.trim v.url = Text.trim u.url) →
    normalizedUrls (urls ++ more) = shown

/-- **The first link of each URL is shown.** What is shown are the links that open a URL, in order and trimmed.
So every URL is shown once and none is made up, all that is shown is trimmed, showing it again changes nothing,
and neither do links at the end that have no URL or one that is there already. -/
theorem normalizedUrls_keeps_first (urls : List ExternalUrl) : KeepsFirst urls (normalizedUrls urls) := by
  have hurls : ∀ url, url ∈ (normalizedUrls urls).map (·.url) ↔ url ≠ "" ∧ ∃ u ∈ urls, Text.trim u.url = url := by
    intro url
    rw [normalizedUrls, mem_map_freshUrls, urlsOf, List.mem_map]
    simp [and_comm]
  have hnodup : ((normalizedUrls urls).map (·.url)).Nodup := nodup_map_freshUrls [] urls
  refine ⟨normalizedUrls_eq urls, hurls, hnodup, fun u hu => ?_, ?_, fun more hmore => ?_⟩
  · have htrimmed := trimmed_of_mem_freshUrls hu
    exact ⟨congrArg (·.label) htrimmed, congrArg (·.url) htrimmed, ((hurls u.url).1 (List.mem_map_of_mem hu)).1⟩
  · refine freshUrls_eq_self (fun u hu => trimmed_of_mem_freshUrls hu) (fun url hurl => ?_) hnodup
    exact ⟨((hurls url).1 hurl).1, List.not_mem_nil⟩
  · have hnothing : freshUrls (urlsOf urls ++ []) more = [] := by
      refine freshUrls_eq_nil fun u hu => (hmore u hu).imp_right fun ⟨v, hv, hsame⟩ => ?_
      rw [List.append_nil, urlsOf]
      exact List.mem_map.2 ⟨v, hv, hsame⟩
    rw [normalizedUrls, freshUrls_append, hnothing, List.append_nil, normalizedUrls]

/-- Links with a blank URL and one that comes twice. -/
def someLinks : List ExternalUrl := [⟨" log ", "file:///a\n"⟩, ⟨"again", " file:///a"⟩, ⟨"nothing", " "⟩, ⟨"", "b"⟩]

theorem normalizedUrls_keeps_first_someLinks :
    (∀ u ∈ ([⟨"late", "b "⟩, ⟨"blank", ""⟩] : List ExternalUrl),
      Text.trim u.url = "" ∨ ∃ v ∈ someLinks, Text.trim v.url = Text.trim u.url) ∧
    normalizedUrls (someLinks ++ [⟨"late", "b "⟩, ⟨"blank", ""⟩]) = normalizedUrls someLinks ∧
    normalizedUrls someLinks = [⟨"log", "file:///a"⟩, ⟨"", "b"⟩] := by
  have hknown : ∀ u ∈ ([⟨"late", "b "⟩, ⟨"blank", ""⟩] : List ExternalUrl),
      Text.trim u.url = "" ∨ ∃ v ∈ someLinks, Text.trim v.url = Text.trim u.url := by decide +kernel
  have hfirst := normalizedUrls_keeps_first someLinks
  refine ⟨hknown, hfirst.more _ hknown, ?_⟩
  rw [hfirst.at_openings]
  decide +kernel

end AgentRelay.Tracker
