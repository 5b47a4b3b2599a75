/-
SeastarLive.Util.QueryString — the arguments of a stream as a query string, and back.

`to_query_string` and `to_query` of `src/util/util.cc`. The keys are written as they are and
the values are encoded; when the string is read both are decoded.

* An `unordered_map` is a list of entries with distinct keys, in the order in which it is
  iterated. Two maps are equal if they look up the same.
* `url_encode` and `url_decode` belong to the HTTP library. They are a parameter;
  `UrlCoding.Lawful` is what they are documented to do, and `percentCoding` does it.
* A failed assertion is `none`.
* `query_roundTrip_iff`: the string is read back exactly if every key is free of the two
  separators and is left alone by `url_decode`.
-/
import Mathlib.Data.Finset.Max
import Mathlib.Data.List.AList
import Mathlib.Data.List.Basic

namespace SeastarLive

/-! ## The coding -/

/-- `url_encode`, and `url_decode` with what it writes if it returns true. -/
structure UrlCoding where
  encode : List Char → List Char
  decode : List Char → Option (List Char)

/-- A character of a URL that is no escape. -/
def plusToSpace (c : Char) : Char := if c = '+' then ' ' else c

theorem plus_notMem_map (s : List Char) : '+' ∉ s.map plusToSpace := by
  intro hmem
  obtain ⟨c, -, hc⟩ := List.mem_map.mp hmem
  unfold plusToSpace at hc
  split at hc
  · cases hc
  · rename_i hne
    exact hne hc

theorem map_plusToSpace {s : List Char} (h : '+' ∉ s) : s.map plusToSpace = s := by
  have hsame : ∀ c ∈ s, plusToSpace c = id c := by
    intro c hc
    refine if_neg ?_
    rintro rfl
    exact h hc
  rw [List.map_congr_left hsame, List.map_id]

namespace UrlCoding

variable (coding : UrlCoding)

/-- What `to_query` takes a text for: itself, if it cannot be decoded. -/
def decoded (s : List Char) : List Char := (coding.decode s).getD s

/-- What the two functions are documented to do. An escape of three characters stands for one
    character, and any other character for itself, but for the plus. -/
structure Lawful : Prop where
  decode_encode : ∀ s, coding.decode (coding.encode s) = some s
  separators : ∀ s, '&' ∉ coding.encode s ∧ '=' ∉ coding.encode s
  length_le : ∀ s t, coding.decode s = some t → t.length ≤ s.length
  eq_of_length : ∀ s t, coding.decode s = some t → t.length = s.length → t = s.map plusToSpace

/-- The key may be written as it is. -/
def Keeps (key : List Char) : Prop :=
  '&' ∉ key ∧ '=' ∉ key ∧ coding.decoded key = key

end UrlCoding

/-! ## The two functions -/

/-- `std::unordered_map<sstring, sstring>`. -/
abbrev Query := AList fun _ : List Char => List Char

/-- An entry as it is written. -/
def writeEntry (coding : UrlCoding) (entry : Σ _ : List Char, List Char) : List Char :=
  entry.1 ++ '=' :: coding.encode entry.2

def toQueryString (coding : UrlCoding) (query : Query) : List Char :=
  if query.entries.isEmpty then []
  else ['&'].intercalate (query.entries.map (writeEntry coding))

/-- An entry as it is read; the two parts are asserted. -/
def readEntry (coding : UrlCoding) (item : List Char) : Option (Σ _ : List Char, List Char) :=
  match item.splitOn '=' with
  | [key, value] => some ⟨coding.decoded key, coding.decoded value⟩
  | _ => none

/-- `insert`, which leaves a key that is there. -/
def Query.insertNew (query : Query) (entry : Σ _ : List Char, List Char) : Query :=
  if entry.1 ∈ query then query else query.insert entry.1 entry.2

/-- One turn of `std::transform`. -/
def insertItem (coding : UrlCoding) (query : Query) (item : List Char) : Option Query :=
  (readEntry coding item).map query.insertNew

def toQuery (coding : UrlCoding) (str : List Char) : Option Query :=
  if str.isEmpty then some ∅
  else (str.splitOn '&').foldlM (insertItem coding) ∅

/-! ## Splitting -/

/-- Joined parts are split where each of them is. -/
theorem splitOn_intercalate_eq {a : Char} {parts : List (List Char)} (hparts : parts ≠ []) :
    ([a].intercalate parts).splitOn a = parts.flatMap (·.splitOn a) := by
  induction parts with
  | nil => exact absurd rfl hparts
  | cons part parts ih =>
      by_cases hnil : parts = []
      · subst hnil
        simp
      · rw [List.intercalate_cons_of_ne_nil hnil, List.append_assoc, List.singleton_append,
          List.splitOn_append_cons_self, ih hnil, List.flatMap_cons]

/-- The first part is what stands before the first separator. -/
theorem head?_splitOn (a : Char) (s : List Char) :
    (s.splitOn a).head? = some (s.takeWhile (· != a)) := by
  induction s with
  | nil => rfl
  | cons x s ih =>
      rw [List.splitOn_cons_eq_if_modifyHead]
      by_cases hx : x = a
      · simp [hx]
      · have hbeq : ¬ (x == a) = true := by simpa using hx
        rw [if_neg hbeq, List.head?_modifyHead, ih]
        simp [hx]

/-- What is read of an entry is read of the text before its first `=`. -/
theorem readEntry_key {coding : UrlCoding} {item : List Char}
    {entry : Σ _ : List Char, List Char} (h : readEntry coding item = some entry) :
    entry.1 = coding.decoded (item.takeWhile (· != '=')) := by
  unfold readEntry at h
  split at h
  · rename_i key value hsplit
    have hkey := head?_splitOn '=' item
    rw [hsplit] at hkey
    cases h
    rw [← Option.some.inj hkey]
  · cases h

/-- The text before the `=` of an item: a whole key that has no separator, or less than a key
    that has one. -/
theorem key_of_mem_splitOn {key value item : List Char} (hvalue : '&' ∉ value)
    (hitem : item ∈ (key ++ '=' :: value).splitOn '&') :
    (item.takeWhile (· != '=') = key ∧ '&' ∉ key ∧ '=' ∉ key)
      ∨ (item.takeWhile (· != '=')).length < key.length ∧ ('&' ∈ key ∨ '=' ∈ key) := by
  induction key generalizing item with
  | nil =>
      have hall : '&' ∉ '=' :: value := by simp [hvalue]
      rw [List.nil_append, List.splitOn_eq_singleton hall, List.mem_singleton] at hitem
      exact .inl (by simp [hitem])
  | cons x key ih =>
      rw [List.cons_append, List.splitOn_cons_eq_if_modifyHead] at hitem
      by_cases hamp : x = '&'
      · -- the item is empty, or lies in the rest of the key
        subst hamp
        rw [if_pos (by simp)] at hitem
        refine .inr ⟨?_, .inl List.mem_cons_self⟩
        rcases List.mem_cons.mp hitem with rfl | hrest
        · simp
        · rcases ih hrest with ⟨hwhole, -⟩ | ⟨hless, -⟩
          · rw [hwhole]
            exact Nat.lt_succ_self key.length
          · exact Nat.lt_succ_of_lt hless
      · rw [if_neg (by simpa using hamp)] at hitem
        cases hsplit : (key ++ '=' :: value).splitOn '&' with
        | nil => exact absurd hsplit (List.splitOn_ne_nil _ _)
        | cons first others =>
            rw [hsplit, List.modifyHead_cons] at hitem
            rcases List.mem_cons.mp hitem with rfl | hother
            · have hfirst := ih (hsplit ▸ List.mem_cons_self)
              by_cases heq : x = '='
              · subst heq
                exact .inr ⟨by simp, .inr List.mem_cons_self⟩
              · rcases hfirst with ⟨hwhole, hno⟩ | ⟨hless, hsep⟩
                · refine .inl ?_
                  simp [heq, hwhole, hno, Ne.symm hamp, Ne.symm heq]
                · refine .inr ⟨?_, hsep.imp (List.mem_cons_of_mem x) (List.mem_cons_of_mem x)⟩
                  simpa [heq] using hless
            · -- a further item needs an `&` in the rest of the key
              have hkey : '&' ∈ key := by
                by_contra hno
                have hall : '&' ∉ key ++ '=' :: value := by simp [hno, hvalue]
                rw [List.splitOn_eq_singleton hall] at hsplit
                obtain ⟨-, rfl⟩ := List.cons.inj hsplit
                cases hother
              rcases ih (hsplit ▸ List.mem_cons_of_mem first hother) with ⟨-, hno, -⟩ | ⟨hless, -⟩
              · exact absurd hkey hno
              · exact .inr ⟨Nat.lt_succ_of_lt hless, .inl (List.mem_cons_of_mem x hkey)⟩

/-! ## The entries that are read -/

section Reading

variable {coding : UrlCoding} (hlawful : coding.Lawful)

include hlawful in
/-- An entry whose key may be written as it is, is one item and is read back. -/
theorem readEntry_writeEntry {entry : Σ _ : List Char, List Char} (hkey : coding.Keeps entry.1) :
    '&' ∉ writeEntry coding entry ∧ readEntry coding (writeEntry coding entry) = some entry := by
  obtain ⟨hamp, heq, hdecoded⟩ := hkey
  obtain ⟨hamp', heq'⟩ := hlawful.separators entry.2
  constructor
  · simp [writeEntry, hamp, hamp']
  · have hvalue : coding.decoded (coding.encode entry.2) = entry.2 := by
      simp [UrlCoding.decoded, hlawful.decode_encode]
    unfold readEntry writeEntry
    rw [List.splitOn_append_cons_self, List.splitOn_eq_singleton heq,
      List.splitOn_eq_singleton heq']
    simp only [List.singleton_append, hdecoded, hvalue]

/-- `insert` adds an entry behind those that are there. -/
theorem lookup_insertNew (query : Query) (entry : Σ _ : List Char, List Char) (key : List Char) :
    (query.insertNew entry).lookup key
      = (query.lookup key).or ([entry].dlookup key) := by
  obtain ⟨k, v⟩ := entry
  unfold Query.insertNew
  dsimp only
  by_cases hkey : key = k
  · subst hkey
    split
    · rename_i hmem
      obtain ⟨w, hw⟩ := Option.isSome_iff_exists.mp (AList.lookup_isSome.mpr hmem)
      simp [hw]
    · rename_i hnew
      rw [AList.lookup_insert, AList.lookup_eq_none.mpr hnew]
      simp
  · have hother : List.dlookup (β := fun _ => List Char) key [⟨k, v⟩] = none :=
      List.dlookup_eq_none.mpr (by simpa using hkey)
    rw [hother, Option.or_none]
    split
    · rfl
    · exact AList.lookup_insert_ne hkey

include hlawful in
/-- Items that were written with such keys are read back, one after the other. -/
theorem foldlM_insertItem {entries : List (Σ _ : List Char, List Char)} (query : Query)
    (hkeys : ∀ entry ∈ entries, coding.Keeps entry.1) :
    ∃ q, (entries.map (writeEntry coding)).foldlM (insertItem coding) query = some q
      ∧ ∀ key, q.lookup key = (query.lookup key).or (entries.dlookup key) := by
  induction entries generalizing query with
  | nil => exact ⟨query, rfl, fun key => by simp⟩
  | cons entry entries ih =>
      have hentry := (readEntry_writeEntry hlawful (hkeys entry List.mem_cons_self)).2
      obtain ⟨q, hq, hlookup⟩ := ih (query.insertNew entry)
        fun e he => hkeys e (List.mem_cons_of_mem entry he)
      refine ⟨q, ?_, ?_⟩
      · rw [List.map_cons, List.foldlM_cons, insertItem, hentry]
        exact hq
      · intro key
        rw [hlookup, lookup_insertNew, Option.or_assoc, ← List.dlookup_append]
        rfl

/-- Every key that is read comes from an item. -/
theorem exists_item_of_mem {items : List (List Char)} {query q : Query}
    (h : items.foldlM (insertItem coding) query = some q) {key : List Char} (hkey : key ∈ q) :
    key ∈ query ∨ ∃ item ∈ items, key = coding.decoded (item.takeWhile (· != '=')) := by
  induction items generalizing query with
  | nil =>
      cases h
      exact .inl hkey
  | cons item items ih =>
      rw [List.foldlM_cons, insertItem] at h
      cases hread : readEntry coding item with
      | none => simp [hread] at h
      | some entry =>
          rw [hread] at h
          rcases ih h with hmem | ⟨item', hitem', hkey'⟩
          · have hlookup := AList.lookup_isSome.mpr hmem
            rw [lookup_insertNew, Option.isSome_or, Bool.or_eq_true, AList.lookup_isSome,
              List.dlookup_isSome] at hlookup
            rcases hlookup with hquery | hentry
            · exact .inl hquery
            · refine .inr ⟨item, List.mem_cons_self, ?_⟩
              rw [← readEntry_key hread]
              simpa using hentry
          · exact .inr ⟨item', List.mem_cons_of_mem item hitem', hkey'⟩

include hlawful in
theorem decoded_length_le (s : List Char) : (coding.decoded s).length ≤ s.length := by
  unfold UrlCoding.decoded
  cases hs : coding.decode s with
  | none => exact Nat.le_refl _
  | some t => exact hlawful.length_le s t hs

include hlawful in
/-- What is decoded without an escape differs at a plus only. -/
theorem decoded_eq_of_length {s : List Char} (h : (coding.decoded s).length = s.length) :
    coding.decoded s = s ∨ coding.decoded s = s.map plusToSpace := by
  unfold UrlCoding.decoded at h ⊢
  cases hs : coding.decode s with
  | none => exact .inl rfl
  | some t =>
      rw [hs] at h
      exact .inr (hlawful.eq_of_length s t hs h)

include hlawful in
/-- Every key that is read comes from a key that was written: from all of one that has no
    separator, or from less than one that has one. -/
theorem exists_key_of_roundTrip {m q : Query}
    (hq : toQuery coding (toQueryString coding m) = some q) {key : List Char} (hkey : key ∈ q) :
    ∃ key' ∈ m.keys, ∃ text, key = coding.decoded text
      ∧ (text = key' ∧ '&' ∉ key' ∧ '=' ∉ key'
        ∨ text.length < key'.length ∧ ('&' ∈ key' ∨ '=' ∈ key')) := by
  unfold toQuery at hq
  split at hq
  · cases hq
    exact absurd hkey (AList.notMem_empty key)
  · rename_i hstr
    unfold toQueryString at hq hstr
    split at hq
    · rename_i hempty
      exact absurd (by simp [hempty]) hstr
    · rename_i hentries
      have hparts : m.entries.map (writeEntry coding) ≠ [] := by
        simpa [List.isEmpty_iff] using hentries
      rw [splitOn_intercalate_eq hparts] at hq
      rcases exists_item_of_mem hq hkey with hmem | ⟨item, hitem, hitemKey⟩
      · exact absurd hmem (AList.notMem_empty key)
      · obtain ⟨part, hpart, hitem⟩ := List.mem_flatMap.mp hitem
        obtain ⟨entry, hentry, rfl⟩ := List.mem_map.mp hpart
        exact ⟨entry.1, List.mem_map_of_mem hentry, _, hitemKey,
          key_of_mem_splitOn (hlawful.separators entry.2).1 hitem⟩

end Reading

/-! ## A coding -/

/-- Upper-case hexadecimal. -/
def hexDigit (n : Nat) : Char := if n < 10 then Char.ofNat (48 + n) else Char.ofNat (55 + n)

/-- The value of a hexadecimal digit. -/
def hexValue (c : Char) : Nat :=
  if 'a' ≤ c then c.toNat - 87 else if 'A' ≤ c then c.toNat - 55 else c.toNat - 48

theorem hexValue_hexDigit {n : Nat} (h : n < 16) : hexValue (hexDigit n) = n := by
  revert n
  decide

/-- A byte that is neither a letter, nor a digit, nor one of `-_.~`. -/
def shouldEncode (c : Char) : Bool :=
  c.toNat < 256 && !(c.isAlphanum || c = '-' || c = '_' || c = '.' || c = '~')

def percentEncode : List Char → List Char
  | [] => []
  | c :: s =>
      if shouldEncode c then
        '%' :: hexDigit (c.toNat / 16) :: hexDigit (c.toNat % 16) :: percentEncode s
      else c :: percentEncode s

def percentDecode : List Char → Option (List Char)
  | [] => some []
  | '%' :: a :: b :: s =>
      (percentDecode s).map (Char.ofNat (16 * hexValue a + hexValue b) :: ·)
  | c :: s => if c = '%' then none else (percentDecode s).map (plusToSpace c :: ·)

/-- Percent encoding. -/
def percentCoding : UrlCoding := ⟨percentEncode, percentDecode⟩

theorem percentDecode_cons {c : Char} (hc : c ≠ '%') (s : List Char) :
    percentDecode (c :: s) = (percentDecode s).map (plusToSpace c :: ·) := by
  rw [percentDecode.eq_def]
  split
  · rename_i h
    cases h
  · rename_i h
    exact absurd (List.cons.inj h).1 hc
  · rename_i h
    obtain ⟨rfl, rfl⟩ := List.cons.inj h
    exact if_neg hc

theorem percentDecode_percentEncode (s : List Char) :
    percentDecode (percentEncode s) = some s := by
  induction s with
  | nil => rfl
  | cons c s ih =>
      unfold percentEncode
      split
      · rename_i hc
        have hlt : c.toNat < 256 := by
          simp only [shouldEncode, Bool.and_eq_true, decide_eq_true_eq] at hc
          exact hc.1
        have hbyte : 16 * (c.toNat / 16) + c.toNat % 16 = c.toNat := Nat.div_add_mod c.toNat 16
        rw [percentDecode, ih, hexValue_hexDigit (by omega), hexValue_hexDigit (by omega), hbyte,
          Char.ofNat_toNat]
        rfl
      · rename_i hc
        have hpercent : c ≠ '%' := by
          rintro rfl
          exact hc (by decide)
        have hplus : c ≠ '+' := by
          rintro rfl
          exact hc (by decide)
        rw [percentDecode_cons hpercent, ih, plusToSpace, if_neg hplus]
        rfl

theorem separators_percentEncode {c : Char} (hc : c = '&' ∨ c = '=') (s : List Char) :
    c ∉ percentEncode s := by
  have hdigit : ∀ n < 16, c ≠ hexDigit n := by
    rcases hc with rfl | rfl <;> decide
  have hpercent : c ≠ '%' := by
    rcases hc with rfl | rfl <;> decide
  induction s with
  | nil => exact List.not_mem_nil
  | cons d s ih =>
      unfold percentEncode
      split
      · rename_i hd
        have hlt : d.toNat < 256 := by
          simp only [shouldEncode, Bool.and_eq_true, decide_eq_true_eq] at hd
          exact hd.1
        simp [hpercent, hdigit (d.toNat / 16) (by omega), hdigit (d.toNat % 16) (by omega), ih]
      · rename_i hd
        have hne : c ≠ d := by
          rintro rfl
          rcases hc with rfl | rfl <;> exact hd (by decide)
        simp [hne, ih]

/-- An escape is shortened, and what is not shortened has none. -/
theorem length_percentDecode (s t : List Char) (h : percentDecode s = some t) :
    t.length ≤ s.length ∧ (t.length = s.length → t = s.map plusToSpace) := by
  induction s using percentDecode.induct generalizing t with
  | case1 =>
      cases h
      exact ⟨Nat.le_refl _, fun _ => rfl⟩
  | case2 a b s ih =>
      rw [percentDecode] at h
      obtain ⟨u, hu, rfl⟩ := Option.map_eq_some_iff.mp h
      have hle := (ih u hu).1
      simp only [List.length_cons]
      exact ⟨by omega, by omega⟩
  | case3 s hs =>
      rw [percentDecode, if_pos rfl] at h
      · cases h
      · exact hs
  | case4 c s hs hc ih =>
      rw [percentDecode_cons hc] at h
      obtain ⟨u, hu, rfl⟩ := Option.map_eq_some_iff.mp h
      obtain ⟨hle, heq⟩ := ih u hu
      refine ⟨Nat.succ_le_succ hle, fun hlength => ?_⟩
      rw [List.map_cons, ← heq (Nat.succ.inj hlength)]

theorem percentCoding_lawful : percentCoding.Lawful where
  decode_encode := percentDecode_percentEncode
  separators s := ⟨separators_percentEncode (.inl rfl) s, separators_percentEncode (.inr rfl) s⟩
  length_le s t h := (length_percentDecode s t h).1
  eq_of_length s t h := (length_percentDecode s t h).2

/-! ## The round trip -/

section RoundTrip

variable {coding : UrlCoding} (hlawful : coding.Lawful) {m : Query}

include hlawful in
/-- Keys that may be written as they are, are read back with their values. -/
theorem toQuery_toQueryString (hkeys : ∀ key ∈ m.keys, coding.Keeps key) :
    ∃ q, toQuery coding (toQueryString coding m) = some q
      ∧ ∀ key, q.lookup key = m.lookup key := by
  unfold toQueryString
  split
  · rename_i hempty
    refine ⟨∅, rfl, fun key => ?_⟩
    have hnil : m.entries = [] := List.isEmpty_iff.mp hempty
    simp [AList.lookup, hnil]
  · rename_i hentries
    have hkeep : ∀ entry ∈ m.entries, coding.Keeps entry.1 := fun entry he =>
      hkeys entry.1 (List.mem_map_of_mem he)
    have hparts : m.entries.map (writeEntry coding) ≠ [] := by
      simpa [List.isEmpty_iff] using hentries
    have hamp : ∀ part ∈ m.entries.map (writeEntry coding), '&' ∉ part := by
      intro part hpart
      obtain ⟨entry, he, rfl⟩ := List.mem_map.mp hpart
      exact (readEntry_writeEntry hlawful (hkeep entry he)).1
    have hsplit := List.splitOn_intercalate '&' hamp hparts
    have hstr : ¬ (['&'].intercalate (m.entries.map (writeEntry coding))).isEmpty = true := by
      intro hempty
      rw [List.isEmpty_iff.mp hempty, List.splitOn_nil] at hsplit
      cases hm : m.entries with
      | nil => simp [hm] at hentries
      | cons entry rest =>
          rw [hm, List.map_cons] at hsplit
          have hhead := (List.cons.inj hsplit).1
          simp [writeEntry] at hhead
    obtain ⟨q, hq, hlookup⟩ := foldlM_insertItem hlawful ∅ hkeep
    refine ⟨q, ?_, ?_⟩
    · rw [toQuery, if_neg hstr, hsplit, hq]
    · intro key
      rw [hlookup, AList.lookup_empty, Option.none_or]
      rfl

include hlawful in
/-- A key that may not be written as it is and that no other such key exceeds, is read from
    another one of the same length. -/
theorem exists_key_of_longest {q : Query}
    (hq : toQuery coding (toQueryString coding m) = some q)
    (hlookup : ∀ key, q.lookup key = m.lookup key) {n : Nat}
    (hmax : ∀ key ∈ m.keys, ¬ coding.Keeps key → key.length ≤ n) {key : List Char}
    (hkey : key ∈ m.keys) (hbad : ¬ coding.Keeps key) (hn : key.length = n) :
    ∃ key' ∈ m.keys, ¬ coding.Keeps key' ∧ key'.length = n ∧ '&' ∉ key' ∧ '=' ∉ key'
      ∧ key = coding.decoded key' := by
  have hmem : key ∈ q := by
    rw [← AList.lookup_isSome, hlookup, AList.lookup_isSome]
    exact hkey
  obtain ⟨key', hkey', text, rfl, hcase⟩ := exists_key_of_roundTrip hlawful hq hmem
  have hle := decoded_length_le hlawful text
  rcases hcase with ⟨rfl, hamp, heq⟩ | ⟨hless, hsep⟩
  · have hbad' : ¬ coding.Keeps text := by
      intro hkeeps
      rw [hkeeps.2.2] at hbad
      exact hbad hkeeps
    have hle' := hmax text hkey' hbad'
    exact ⟨text, hkey', hbad', by omega, hamp, heq, rfl⟩
  · have hbad' : ¬ coding.Keeps key' := fun hkeeps =>
      hsep.elim hkeeps.1 hkeeps.2.1
    have hle' := hmax key' hkey' hbad'
    omega

end RoundTrip

/-- The arguments are read back as they were exactly if every key is free of `&` and `=` and
    is left as it is by `url_decode`. -/
theorem query_roundTrip_iff (coding : UrlCoding) (hlawful : coding.Lawful) (m : Query) :
    (∃ q, toQuery coding (toQueryString coding m) = some q
      ∧ ∀ key, q.lookup key = m.lookup key) ↔ ∀ key ∈ m.keys, coding.Keeps key := by
  classical
  constructor
  · rintro ⟨q, hq, hlookup⟩
    by_contra hsome
    obtain ⟨key, hkey, hbad⟩ : ∃ key ∈ m.keys, ¬ coding.Keeps key := by simpa using hsome
    -- a longest of the keys that may not be written as they are
    obtain ⟨key, hlongest, hmax⟩ :=
      (m.keys.toFinset.filter fun key => ¬ coding.Keeps key).exists_max_image List.length
        ⟨key, by simp [hkey, hbad]⟩
    simp only [Finset.mem_filter, List.mem_toFinset] at hlongest hmax
    have hmax : ∀ key' ∈ m.keys, ¬ coding.Keeps key' → key'.length ≤ key.length :=
      fun key' hkey' hbad' => hmax key' ⟨hkey', hbad'⟩
    -- such a key is read from a text of its length, so it has no plus
    have hplus : ∀ key' ∈ m.keys, ¬ coding.Keeps key' → key'.length = key.length →
        '+' ∉ key' := by
      intro key' hkey' hbad' hn
      obtain ⟨text, htext, hbadText, hlength, hamp, heq, rfl⟩ :=
        exists_key_of_longest hlawful hq hlookup hmax hkey' hbad' hn
      rcases decoded_eq_of_length hlawful (hn.trans hlength.symm) with hsame | hspaces
      · exact absurd ⟨hamp, heq, hsame⟩ hbadText
      · rw [hspaces]
        exact plus_notMem_map text
    obtain ⟨text, htext, hbadText, hlength, hamp, heq, hdecoded⟩ :=
      exists_key_of_longest hlawful hq hlookup hmax hlongest.1 hlongest.2 rfl
    have hno := hplus text htext hbadText hlength
    rcases decoded_eq_of_length hlawful (by rw [← hdecoded, hlength]) with h | h
    · exact hbadText ⟨hamp, heq, h⟩
    · exact hbadText ⟨hamp, heq, h.trans (map_plusToSpace hno)⟩
  · exact toQuery_toQueryString hlawful

/-- The arguments `token = "a&b=c"`. -/
theorem query_roundTrip_token :
    ∃ q, toQuery percentCoding (toQueryString percentCoding
        (AList.singleton ['t', 'o', 'k', 'e', 'n'] ['a', '&', 'b', '=', 'c'])) = some q
      ∧ ∀ key, q.lookup key
        = (AList.singleton ['t', 'o', 'k', 'e', 'n'] ['a', '&', 'b', '=', 'c'] : Query).lookup
            key := by
  refine (query_roundTrip_iff percentCoding percentCoding_lawful _).mpr ?_
  intro key hkey
  rw [AList.keys_singleton, List.mem_singleton] at hkey
  subst hkey
  exact ⟨by decide, by decide, by decide⟩

/-- The arguments `a&b = "c"`: the first item has no `=`. -/
theorem query_roundTrip_ampersand :
    ¬ ∃ q, toQuery percentCoding (toQueryString percentCoding
        (AList.singleton ['a', '&', 'b'] ['c'])) = some q
      ∧ ∀ key, q.lookup key = (AList.singleton ['a', '&', 'b'] ['c'] : Query).lookup key := by
  have hnone : toQuery percentCoding (toQueryString percentCoding
      (AList.singleton ['a', '&', 'b'] ['c'])) = none := by decide
  rintro ⟨q, hq, -⟩
  rw [hnone] at hq
  cases hq

end SeastarLive
