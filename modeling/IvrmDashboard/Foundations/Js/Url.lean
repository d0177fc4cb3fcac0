import Mathlib.Data.List.Basic
import Mathlib.Data.List.TakeWhile

/-!
# Relative URLs

`new URL(value, base)` for a value that starts with a slash and a base of the scheme `https`. The
value is cleaned of white space at its ends and of tabs and line ends; a second slash (or backslash)
starts an authority, of which the installation tells the origin; the segments of the path are
escaped, and those that consist of dots are removed.

What is read is normal (`normal_of_parse`): no segment consists of dots and no character would be
escaped again. A normal URL is read again from its own text (`parse_normal`), unless that text starts
with two slashes, which would make its second segment an authority.
-/

namespace Js

/-- A URL, as far as it is read here. -/
structure Url where
  origin : String
  path : List (List Char)
  query : Option (List Char)

namespace Url

/-! ## Characters -/

/-- `/`, and what counts as one. -/
def separator (c : Char) : Bool := c == '/' || c == '\\'

/-- The characters that are escaped in a path; 96 is the grave accent. -/
def pathSet (c : Char) : Bool :=
  c.toNat ≤ 32 || 126 < c.toNat || c.toNat = 96 ||
    c ∈ ['"', '#', '<', '>', '?', '^', '{', '}']

/-- The characters that are escaped in a query. -/
def querySet (c : Char) : Bool :=
  c.toNat ≤ 32 || 126 < c.toNat || c ∈ ['"', '#', '<', '>', '\'']

/-- A hexadecimal digit. -/
def hexDigit (n : ℕ) : Char := Char.ofNat (if n < 10 then 48 + n else 55 + n)

/-- The bytes of a character, each as `%XX`. -/
def percentEncode (c : Char) : List Char :=
  (String.utf8EncodeChar c).flatMap fun b =>
    ['%', hexDigit (b.toNat / 16), hexDigit (b.toNat % 16)]

/-- A text with the characters of a set escaped. -/
def escape (set : Char → Bool) (l : List Char) : List Char :=
  l.flatMap fun c => if set c then percentEncode c else [c]

/-- `C0 control or space` -/
def isC0OrSpace (c : Char) : Bool := c.toNat ≤ 32

/-- The value without white space at its ends and without tabs and line ends. -/
def clean (l : List Char) : List Char :=
  (((l.dropWhile isC0OrSpace).reverse.dropWhile isC0OrSpace).reverse).filter fun c =>
    !(c == '\t' || c == '\n' || c == '\r')

/-! ## The path -/

/-- A segment that stands for itself. -/
def isSingleDot (s : List Char) : Bool :=
  s.map Char.toLower ∈ [".".toList, "%2e".toList]

/-- A segment that stands for the one before. -/
def isDoubleDot (s : List Char) : Bool :=
  s.map Char.toLower ∈ ["..".toList, ".%2e".toList, "%2e.".toList, "%2e%2e".toList]

/-- The path at a separator. -/
def push (path : List (List Char)) (buffer : List Char) : List (List Char) :=
  if isDoubleDot buffer then path.dropLast
  else if isSingleDot buffer then path
  else path ++ [buffer]

/-- The path at its end. -/
def finish (path : List (List Char)) (buffer : List Char) : List (List Char) :=
  if isDoubleDot buffer then path.dropLast ++ [[]]
  else if isSingleDot buffer then path ++ [[]]
  else path ++ [buffer]

/-- The path and the query, character by character. -/
def readPath (path : List (List Char)) (buffer : List Char) :
    List Char → List (List Char) × Option (List Char)
  | [] => (finish path buffer, none)
  | c :: rest =>
    if separator c then readPath (push path buffer) [] rest
    else if c = '?' then
      (finish path buffer, some (escape querySet (rest.takeWhile (· ≠ '#'))))
    else if c = '#' then (finish path buffer, none)
    else readPath path (buffer ++ escape pathSet [c]) rest

/-- The URL of an origin and what follows the first slash. -/
def ofPath (origin : String) (rest : List Char) : Url where
  origin := origin
  path := (readPath [] [] rest).1
  query := (readPath [] [] rest).2

/-- The end of an authority. -/
def endsAuthority (c : Char) : Bool := separator c || c == '?' || c == '#'

/-- `new URL(value, base)`; `origin?` is the origin of an authority, if it is one. -/
def parse (origin? : List Char → Option String) (base value : String) : Option Url :=
  match clean value.toList with
  | '/' :: rest =>
    if rest.head?.any separator then
      let rest := rest.dropWhile separator
      (origin? (rest.takeWhile (!endsAuthority ·))).map fun origin =>
        let rest := rest.dropWhile (!endsAuthority ·)
        ofPath origin (if rest.head?.any separator then rest.tail else rest)
    else some (ofPath base rest)
  | _ => none

variable (u : Url)

/-- `pathname` -/
def pathname : List Char := u.path.flatMap fun s => '/' :: s

/-- `search` -/
def search : List Char :=
  match u.query with
  | none | some [] => []
  | some q => '?' :: q

/-! ## What is read is normal -/

/-- Nothing in the text is escaped or separates. -/
def Plain (s : List Char) : Prop := ∀ c ∈ s, pathSet c = false ∧ separator c = false

/-- A segment as it stands in a path. -/
structure Segment (s : List Char) : Prop where
  plain : Plain s
  notDouble : isDoubleDot s = false
  notSingle : isSingleDot s = false

/-- A URL that has been read. -/
structure Normal : Prop where
  path_ne : u.path ≠ []
  path : ∀ s ∈ u.path, Segment s
  query : ∀ q ∈ u.query, ∀ c ∈ q, querySet c = false

variable {u}

theorem segment_nil : Segment [] := ⟨by simp [Plain], rfl, rfl⟩

theorem hexDigit_plain {n : ℕ} (h : n < 16) :
    pathSet (hexDigit n) = false ∧ separator (hexDigit n) = false ∧
      querySet (hexDigit n) = false := by
  revert n
  decide

theorem percentEncode_plain (c : Char) :
    ∀ d ∈ percentEncode c, pathSet d = false ∧ separator d = false ∧ querySet d = false := by
  intro d hd
  obtain ⟨b, -, hd⟩ := List.mem_flatMap.1 hd
  have hb := b.toNat_lt
  simp only [List.mem_cons, List.not_mem_nil, or_false] at hd
  rcases hd with rfl | rfl | rfl
  · decide
  · exact hexDigit_plain (by omega)
  · exact hexDigit_plain (by omega)

theorem escape_pathSet_plain {c : Char} (hc : separator c = false) : Plain (escape pathSet [c]) := by
  intro d hd
  simp only [escape, List.flatMap_cons, List.flatMap_nil, List.append_nil] at hd
  split at hd
  next => exact ⟨(percentEncode_plain c d hd).1, (percentEncode_plain c d hd).2.1⟩
  next hset =>
    rw [List.mem_singleton.1 hd]
    exact ⟨Bool.eq_false_iff.2 hset, hc⟩

theorem escape_querySet (l : List Char) : ∀ d ∈ escape querySet l, querySet d = false := by
  intro d hd
  obtain ⟨c, -, hd⟩ := List.mem_flatMap.1 hd
  split at hd
  next => exact (percentEncode_plain c d hd).2.2
  next hset =>
    rw [List.mem_singleton.1 hd]
    exact Bool.eq_false_iff.2 hset

theorem push_segments {path : List (List Char)} {buffer : List Char}
    (hpath : ∀ s ∈ path, Segment s) (hbuffer : Plain buffer) :
    ∀ s ∈ push path buffer, Segment s := by
  intro s hs
  unfold push at hs
  split at hs
  next => exact hpath s (List.dropLast_subset _ hs)
  next hdouble =>
    split at hs
    next => exact hpath s hs
    next hsingle =>
      rcases List.mem_append.1 hs with hs | hs
      · exact hpath s hs
      · rw [List.mem_singleton.1 hs]
        exact ⟨hbuffer, Bool.eq_false_iff.2 hdouble, Bool.eq_false_iff.2 hsingle⟩

theorem finish_segments {path : List (List Char)} {buffer : List Char}
    (hpath : ∀ s ∈ path, Segment s) (hbuffer : Plain buffer) :
    finish path buffer ≠ [] ∧ ∀ s ∈ finish path buffer, Segment s := by
  have hend : ∀ l, (∀ s ∈ l, Segment s) →
      l ++ [[]] ≠ [] ∧ ∀ s ∈ l ++ [[]], Segment s := by
    intro l hl
    refine ⟨by simp, fun s hs => ?_⟩
    rcases List.mem_append.1 hs with hs | hs
    · exact hl s hs
    · rw [List.mem_singleton.1 hs]
      exact segment_nil
  unfold finish
  split
  next => exact hend _ fun s hs => hpath s (List.dropLast_subset _ hs)
  next hdouble =>
    split
    next => exact hend _ hpath
    next hsingle =>
      have hpush := push_segments hpath hbuffer
      simp only [push, if_neg hdouble, if_neg hsingle] at hpush
      exact ⟨by simp, hpush⟩

theorem readPath_normal {path : List (List Char)} {buffer : List Char}
    (hpath : ∀ s ∈ path, Segment s) (hbuffer : Plain buffer) (l : List Char) :
    (readPath path buffer l).1 ≠ [] ∧ (∀ s ∈ (readPath path buffer l).1, Segment s) ∧
      ∀ q ∈ (readPath path buffer l).2, ∀ c ∈ q, querySet c = false := by
  induction l generalizing path buffer with
  | nil => exact ⟨(finish_segments hpath hbuffer).1, (finish_segments hpath hbuffer).2, nofun⟩
  | cons c rest ih =>
    unfold readPath
    split
    next => exact ih (push_segments hpath hbuffer) (by simp [Plain])
    next hseparator =>
      split
      next =>
        refine ⟨(finish_segments hpath hbuffer).1, (finish_segments hpath hbuffer).2, ?_⟩
        rintro q ⟨⟩
        exact escape_querySet _
      next =>
        split
        next => exact ⟨(finish_segments hpath hbuffer).1, (finish_segments hpath hbuffer).2, nofun⟩
        next =>
          apply ih hpath
          intro d hd
          rcases List.mem_append.1 hd with hd | hd
          · exact hbuffer d hd
          · exact escape_pathSet_plain (Bool.eq_false_iff.2 hseparator) d hd

theorem normal_ofPath (origin : String) (rest : List Char) : (ofPath origin rest).Normal := by
  obtain ⟨hne, hpath, hquery⟩ := @readPath_normal [] [] (by simp)
    (by simp [Plain]) rest
  exact ⟨hne, hpath, hquery⟩

/-- **What is read is normal.** -/
theorem normal_of_parse {origin? : List Char → Option String} {base value : String}
    (h : parse origin? base value = some u) : u.Normal := by
  unfold parse at h
  split at h
  next =>
    split at h
    next =>
      obtain ⟨origin, -, rfl⟩ := Option.map_eq_some_iff.1 h
      exact normal_ofPath _ _
    next =>
      cases h
      exact normal_ofPath _ _
  next => cases h

/-! ## A normal URL is read again -/

theorem escape_eq_self {set : Char → Bool} {l : List Char} (h : ∀ c ∈ l, set c = false) :
    escape set l = l := by
  induction l with
  | nil => rfl
  | cons c l ih =>
    obtain ⟨hc, hl⟩ := List.forall_mem_cons.1 h
    have hrest := ih hl
    simp only [escape] at hrest
    simp [escape, hc, hrest]

theorem readPath_plain {s : List Char} (hs : Plain s) (path : List (List Char))
    (buffer rest : List Char) :
    readPath path buffer (s ++ rest) = readPath path (buffer ++ s) rest := by
  induction s generalizing buffer with
  | nil => simp
  | cons c s ih =>
    obtain ⟨hc, hs⟩ := List.forall_mem_cons.1 hs
    have hquestion : c ≠ '?' := by
      rintro rfl
      cases hc.1
    have hhash : c ≠ '#' := by
      rintro rfl
      cases hc.1
    rw [List.cons_append, readPath, if_neg (by simp [hc.2]), if_neg hquestion, if_neg hhash,
      escape_eq_self (by simpa using hc.1), ih hs, List.append_assoc]
    rfl

theorem push_segment {s : List Char} (h : Segment s) (path : List (List Char)) :
    push path s = path ++ [s] := by
  simp [push, h.notDouble, h.notSingle]

theorem finish_segment {s : List Char} (h : Segment s) (path : List (List Char)) :
    finish path s = path ++ [s] := by
  simp [finish, h.notDouble, h.notSingle]

/-- The segments of a path are read one after the other; the induction is on those that follow. -/
theorem readPath_segments {s : List Char} {more : List (List Char)} (hs : Segment s)
    (hmore : ∀ t ∈ more, Segment t) (path : List (List Char)) {tail : List Char}
    {query : Option (List Char)}
    (htail : ∀ path buffer, readPath path buffer tail = (finish path buffer, query)) :
    readPath path [] (s ++ (more.flatMap ('/' :: ·) ++ tail)) = (path ++ s :: more, query) := by
  induction more generalizing s path with
  | nil =>
    rw [readPath_plain hs.plain, List.flatMap_nil, List.nil_append, List.nil_append, htail,
      finish_segment hs]
  | cons t more ih =>
    obtain ⟨ht, hmore⟩ := List.forall_mem_cons.1 hmore
    rw [readPath_plain hs.plain, List.flatMap_cons, List.nil_append, List.cons_append,
      List.cons_append, List.append_assoc, readPath, if_pos (by decide), push_segment hs, ih ht hmore,
      List.append_assoc]
    rfl

/-- The URL with the text of `u`, on another origin. -/
def onOrigin (u : Url) (base : String) : Url := ⟨base, u.path, u.query.filter (· ≠ [])⟩

theorem pathname_onOrigin (u : Url) (base : String) : (u.onOrigin base).pathname = u.pathname := rfl

theorem search_onOrigin (u : Url) (base : String) : (u.onOrigin base).search = u.search := by
  unfold search onOrigin
  match u.query with
  | none => rfl
  | some [] => rfl
  | some (c :: q) => rfl

theorem readPath_search (hu : u.Normal) (path : List (List Char)) (buffer : List Char) :
    readPath path buffer u.search = (finish path buffer, u.query.filter (· ≠ [])) := by
  have hquery := hu.query
  unfold search
  match hq : u.query with
  | none => rfl
  | some [] => rfl
  | some (c :: q) =>
    have hplain := hquery (c :: q) hq
    have hhash : (c :: q).takeWhile (· ≠ '#') = c :: q := by
      rw [List.takeWhile_eq_self_iff]
      intro d hd
      have hd := hplain d hd
      refine decide_eq_true fun heq => ?_
      rw [heq] at hd
      cases hd
    rw [readPath, if_neg (by decide), if_pos rfl, hhash, escape_eq_self hplain]
    rfl

theorem clean_eq_self {l : List Char} (h : ∀ c ∈ l, 32 < c.toNat) : clean l = l := by
  have hdrop {l : List Char} (h : ∀ c ∈ l, 32 < c.toNat) : l.dropWhile isC0OrSpace = l := by
    cases l with
    | nil => rfl
    | cons c l =>
      have hc := h c List.mem_cons_self
      exact List.dropWhile_cons_of_neg (by simp only [isC0OrSpace, decide_eq_true_eq]; omega)
  have hreverse : ∀ c ∈ l.reverse, 32 < c.toNat := fun c hc => h c (List.mem_reverse.1 hc)
  rw [clean, hdrop h, hdrop hreverse, List.reverse_reverse, List.filter_eq_self]
  intro c hc
  have hne {d : Char} (hd : d.toNat ≤ 32) : c ≠ d := by
    rintro rfl
    have := h c hc
    omega
  simp [hne (show '\t'.toNat ≤ 32 by decide), hne (show '\n'.toNat ≤ 32 by decide),
    hne (show '\r'.toNat ≤ 32 by decide)]

/-- Nothing in the text of a normal URL is removed from its ends. -/
theorem toNat_of_mem_text (hu : u.Normal) : ∀ c ∈ u.pathname ++ u.search, 32 < c.toNat := by
  intro c hc
  rcases List.mem_append.1 hc with hc | hc
  · obtain ⟨s, hs, hc⟩ := List.mem_flatMap.1 hc
    rcases List.mem_cons.1 hc with rfl | hc
    · decide
    · have hplain := ((hu.path s hs).plain c hc).1
      simp only [pathSet, Bool.or_eq_false_iff, decide_eq_false_iff_not] at hplain
      omega
  · have hquery := hu.query
    unfold search at hc
    split at hc
    next => cases hc
    next => cases hc
    next q _ hq =>
      rcases List.mem_cons.1 hc with rfl | hc
      · decide
      · have hplain := hquery q hq c hc
        simp only [querySet, Bool.or_eq_false_iff, decide_eq_false_iff_not] at hplain
        omega

/-- **A normal URL is read again** from its path and its query, when these do not start with two
slashes. -/
theorem parse_normal (origin? : List Char → Option String) (base : String) (hu : u.Normal)
    (hone : ∀ s more, u.path ≠ [] :: s :: more) :
    parse origin? base (String.ofList (u.pathname ++ u.search)) = some (u.onOrigin base) := by
  obtain ⟨s, more, hpath⟩ := List.exists_cons_of_ne_nil hu.path_ne
  have hsegments := hu.path
  rw [hpath, List.forall_mem_cons] at hsegments
  have htext : u.pathname ++ u.search =
      '/' :: (s ++ (more.flatMap ('/' :: ·) ++ u.search)) := by
    simp [pathname, hpath]
  have hread : ofPath base (s ++ (more.flatMap ('/' :: ·) ++ u.search)) = u.onOrigin base := by
    have hreadPath := readPath_segments hsegments.1 hsegments.2 [] (readPath_search hu)
    simp only [ofPath, hreadPath, onOrigin, hpath, List.nil_append]
  have hhead : (s ++ (more.flatMap ('/' :: ·) ++ u.search)).head?.any separator = false := by
    match s, hsegments.1.plain with
    | c :: s, hplain => simpa using (hplain c List.mem_cons_self).2
    | [], _ =>
      match more, hpath with
      | t :: more, hpath => exact absurd hpath (hone t more)
      | [], _ =>
        unfold search
        split <;> rfl
  unfold parse
  rw [String.toList_ofList, clean_eq_self (toNat_of_mem_text hu), htext]
  simp only [hhead, Bool.false_eq_true, if_false, hread]

end Url

end Js
