import HawkTui.Core.HawkFrame
import HawkTui.Lib.Columns

/-! The codec of the kv bag. What the decoder can produce is a clean bag, and a
clean bag survives encoding except for one entry: an empty key that maps to
`true` is written as an empty flag, which the decoder skips. -/

namespace HawkTui.Proofs.KvBag
open Lib Text

def parsePart (part : Text) : Option (Text × Text) :=
  let part := trim part
  if part.isEmpty then none
  else match splitOnce '=' part with
    | some (k, v) => some (trim k, trim v)
    | none => some (part, trueText)

private theorem insertPart_eq (out : KvBag) (part : Text) :
    insertPart out part = BTreeMap.extend out (parsePart part).toList := by
  simp only [insertPart, parsePart]
  split
  · rfl
  · cases splitOnce '=' (trim part) <;> rfl

private theorem foldl_insertPart (out : KvBag) (parts : List Text) :
    parts.foldl insertPart out = BTreeMap.extend out (parts.filterMap parsePart) := by
  induction parts generalizing out with
  | nil => rfl
  | cons part rest ih =>
    rw [List.foldl_cons, ih, insertPart_eq]
    cases found : parsePart part <;> simp [found]

theorem parseKvBag_eq (s : Text) :
    parseKvBag s = BTreeMap.extend ∅ ((s.splitOn ';').filterMap parsePart) := by
  rw [← foldl_insertPart, parseKvBag]
  split
  next blank =>
    have empty : trim s = [] := by simpa using blank
    have absent : ';' ∉ s := by
      intro member
      have space := (trim_eq_nil_iff s).mp empty ';' member
      exact absurd space (by decide)
    rw [List.splitOn_eq_singleton absent]
    simp [insertPart, empty]
  next => rfl

theorem parseKvBag_trim (s : Text) : parseKvBag (trim s) = parseKvBag s := by
  have parts : ∀ s : Text, (s.splitOn ';').filterMap parsePart = (cells ';' s).filterMap parsePart := by
    intro s
    rw [cells, List.filterMap_map]
    apply List.filterMap_congr
    intro part _
    simp only [parsePart, Function.comp_apply, trim_trim]
  rw [parseKvBag_eq, parseKvBag_eq, parts, parts, cells_trim_of_visible (by decide)]

/-- Entries that mean the same written and read. -/
structure EntryClean (k v : Text) : Prop where
  key : Trimmed k
  value : Trimmed v
  keySemicolon : ';' ∉ k
  keyEquals : '=' ∉ k
  valueSemicolon : ';' ∉ v

def Clean (kv : KvBag) : Prop := ∀ k v, kv[k]? = some v → EntryClean k v

private theorem true_clean {k : Text} (key : Trimmed k) (semicolon : ';' ∉ k) (equals : '=' ∉ k) :
    EntryClean k trueText :=
  ⟨key, by decide, semicolon, equals, by decide⟩

private theorem parsePart_clean {part k v : Text} (absent : ';' ∉ part) (found : parsePart part = some (k, v)) :
    EntryClean k v := by
  have trimmedAbsent : ';' ∉ trim part := fun member => absent (mem_of_mem_trim member)
  simp only [parsePart] at found
  split at found
  · cases found
  · split at found
    next k' v' split =>
      cases found
      obtain ⟨noEquals, whole⟩ := splitOnce_eq_some_iff.mp split
      rw [whole, List.mem_append, List.mem_cons, not_or, not_or] at trimmedAbsent
      exact ⟨trim_trimmed _, trim_trimmed _, fun member => trimmedAbsent.1 (mem_of_mem_trim member),
        fun member => noEquals (mem_of_mem_trim member), fun member => trimmedAbsent.2.2 (mem_of_mem_trim member)⟩
    next split =>
      cases found
      exact true_clean (trim_trimmed _) trimmedAbsent (splitOnce_eq_none_iff.mp split)

/-- The entry behind a decoded lookup is one of the text's own parts. -/
theorem lookup_part {s k v : Text} (found : (parseKvBag s)[k]? = some v) :
    ∃ part ∈ s.splitOn ';', parsePart part = some (k, v) := by
  rw [parseKvBag_eq, BTreeMap.getElem?_extend] at found
  simp only [Std.ExtTreeMap.getElem?_empty, Option.or_none, Option.map_eq_some_iff] at found
  obtain ⟨entry, last, rfl⟩ := found
  have member := mem_of_last last
  obtain ⟨part, inside, parsed⟩ := List.mem_filterMap.mp member.1
  have same : entry.1 = k := by simpa using member.2
  exact ⟨part, inside, by rw [parsed, ← same]⟩

theorem parseKvBag_clean (s : Text) : Clean (parseKvBag s) := by
  intro k v found
  obtain ⟨part, inside, parsed⟩ := lookup_part found
  exact parsePart_clean (sep_not_mem_of_mem_splitOn inside) parsed

/-- Decoding invents no character outside the text, other than those of `true`. -/
theorem mem_of_lookup {s k v : Text} {c : Char} (found : (parseKvBag s)[k]? = some v)
    (member : c ∈ k ∨ c ∈ v) : c ∈ s ∨ c ∈ trueText := by
  obtain ⟨part, inside, parsed⟩ := lookup_part found
  have kept : ∀ d, d ∈ trim part → d ∈ s := fun d here => mem_of_mem_splitOn inside (mem_of_mem_trim here)
  simp only [parsePart] at parsed
  split at parsed
  · cases parsed
  · split at parsed
    next k' v' split =>
      cases parsed
      obtain ⟨-, whole⟩ := splitOnce_eq_some_iff.mp split
      apply Or.inl
      apply kept
      rw [whole, List.mem_append, List.mem_cons]
      rcases member with here | here
      · exact Or.inl (mem_of_mem_trim here)
      · exact Or.inr (Or.inr (mem_of_mem_trim here))
    next =>
      cases parsed
      exact member.imp (kept c) id

/-- The only clean entry that encoding loses. -/
def emptyFlag (k v : Text) : Bool := k == [] && v == trueText

def withoutEmptyFlag (kv : KvBag) : KvBag := kv.filter fun k v => !emptyFlag k v

private theorem entry_semicolon {k v : Text} (key : ';' ∉ k) (value : ';' ∉ v) : ';' ∉ serializeEntry (k, v) := by
  unfold serializeEntry
  split
  · exact key
  · simp only [List.mem_append, List.mem_cons, not_or]
    exact ⟨key, by decide, value⟩

theorem parsePart_pair {k : Text} (key : Trimmed k) (equals : '=' ∉ k) (v : Text) :
    parsePart (k ++ '=' :: v) = some (k, trim v) := by
  have itself : trim k = k := key
  have value : trim (trimEnd v) = trim v := trim_trimEndMatches (fun _ space => space) v
  simp [parsePart, trim_append_cons key (by decide : isWhitespace '=' = false), splitOnce_append equals, itself, value]

private theorem parsePart_serializeEntry {k : Text} (key : Trimmed k) (equals : '=' ∉ k) (v : Text) :
    parsePart (serializeEntry (k, v)) = if emptyFlag k v then none else some (k, trim v) := by
  have itself : trim k = k := key
  by_cases flag : v = trueText
  · subst flag
    have value : trim trueText = trueText := by decide
    simp only [serializeEntry, ↓reduceIte, parsePart, itself, splitOnce_eq_none_iff.mpr equals, value]
    cases k <;> simp [emptyFlag]
  · simp [serializeEntry, flag, parsePart_pair key equals v, emptyFlag]

theorem serializeKvBag_eq (kv : KvBag) :
    serializeKvBag kv = [';'].intercalate (kv.toList.map serializeEntry) := by
  unfold serializeKvBag
  split
  next empty =>
    have entries : kv.toList = [] := Std.ExtTreeMap.toList_eq_nil_iff.mpr (Std.ExtTreeMap.isEmpty_iff.mp empty)
    simp [entries]
  next => rfl

/-- Decoding an encoded clean bag gives it back without its empty flag. -/
theorem parse_serialize {kv : KvBag} (clean : Clean kv) :
    parseKvBag (serializeKvBag kv) = withoutEmptyFlag kv := by
  by_cases empty : kv.toList = []
  · obtain rfl : kv = ∅ := Std.ExtTreeMap.toList_eq_nil_iff.mp empty
    decide
  · have entry : ∀ e ∈ kv.toList, EntryClean e.1 e.2 := fun e inside =>
      clean e.1 e.2 (Std.ExtTreeMap.mem_toList_iff_getElem?_eq_some.mp inside)
    have pieces : (serializeKvBag kv).splitOn ';' = kv.toList.map serializeEntry := by
      rw [serializeKvBag_eq]
      apply List.splitOn_intercalate
      · intro part member
        obtain ⟨e, inside, rfl⟩ := List.mem_map.mp member
        exact entry_semicolon (entry e inside).keySemicolon (entry e inside).valueSemicolon
      · simpa using empty
    have kept : (kv.toList.map serializeEntry).filterMap parsePart =
        kv.toList.filter (fun e => !emptyFlag e.1 e.2) := by
      rw [List.filterMap_map, ← List.filterMap_eq_filter]
      apply List.filterMap_congr
      intro e inside
      have clean := entry e inside
      have value : trim e.2 = e.2 := clean.value
      rw [Function.comp_apply, parsePart_serializeEntry clean.key clean.keyEquals, value]
      cases flag : emptyFlag e.1 e.2 <;> simp [flag, Option.guard]
    calc parseKvBag (serializeKvBag kv)
        = BTreeMap.extend ∅ (kv.toList.filter fun e => !emptyFlag e.1 e.2) := by rw [parseKvBag_eq, pieces, kept]
      _ = BTreeMap.extend ∅ (withoutEmptyFlag kv).toList := by rw [withoutEmptyFlag, Std.ExtTreeMap.toList_filter]
      _ = withoutEmptyFlag kv := BTreeMap.extend_toList _

/-- What stands behind decides, and what stands before it counts for the rest. -/
theorem lookup_append (front back k : Text) :
    (parseKvBag (front ++ ';' :: back))[k]? = (parseKvBag back)[k]?.or (parseKvBag front)[k]? := by
  rw [parseKvBag_eq, parseKvBag_eq, parseKvBag_eq, List.splitOn_append_cons_self, List.filterMap_append, BTreeMap.extend_append,
    BTreeMap.getElem?_extend, BTreeMap.getElem?_extend ∅ ((back.splitOn ';').filterMap parsePart), Std.ExtTreeMap.getElem?_empty,
    Option.or_none]

/-- A text of one entry. -/
theorem lookup_pair {k v : Text} (key : Trimmed k) (equals : '=' ∉ k) (absent : ';' ∉ k ++ '=' :: v) (other : Text) :
    (parseKvBag (k ++ '=' :: v))[other]? = if k = other then some (trim v) else none := by
  rw [parseKvBag_eq, List.splitOn_eq_singleton absent, List.filterMap_cons_some (parsePart_pair key equals v),
    List.filterMap_nil, BTreeMap.extend_cons, BTreeMap.extend_nil, BTreeMap.getElem?_insert_eq, Std.ExtTreeMap.getElem?_empty]

/-- An entry is there under its name, whatever its value holds. -/
theorem lookup_isSome {name : Text} (trimmed : Trimmed name) (equals : '=' ∉ name) (semicolon : ';' ∉ name) (value : Text) :
    (parseKvBag (name ++ '=' :: value))[name]?.isSome = true := by
  have front : ∀ {value : Text}, ';' ∉ value → (parseKvBag (name ++ '=' :: value))[name]? = some (trim value) := by
    intro value absent
    have whole : ';' ∉ name ++ '=' :: value :=
      List.not_mem_append semicolon (List.not_mem_cons_of_ne_of_not_mem (by decide) absent)
    rw [lookup_pair trimmed equals whole, if_pos rfl]
  by_cases member : ';' ∈ value
  · obtain ⟨first, rest, rfl, absent⟩ := List.eq_append_cons_of_mem member
    have shape : name ++ '=' :: (first ++ ';' :: rest) = (name ++ '=' :: first) ++ ';' :: rest := by simp
    rw [shape, lookup_append, front absent, Option.or_some]
    rfl
  · rw [front member]
    rfl

/-- The last part read under a key decides, whatever stands before it. -/
theorem lookup_of_last {s k v part : Text} {earlier rest : List Text} (split : s.splitOn ';' = earlier ++ part :: rest)
    (own : parsePart part = some (k, v)) (others : ∀ other ∈ rest, ∀ read, parsePart other = some read → read.1 ≠ k) :
    (parseKvBag s)[k]? = some v := by
  have foreign : (rest.filterMap parsePart).filter (·.1 = k) = [] := by
    rw [List.filter_eq_nil_iff]
    intro read inside
    obtain ⟨other, listed, parsed⟩ := List.mem_filterMap.mp inside
    simpa using others other listed read parsed
  rw [parseKvBag_eq, split, BTreeMap.getElem?_extend, List.filterMap_append, List.filterMap_cons_some own,
    List.filter_append, List.filter_cons, foreign]
  simp

/-- A well-formed key with a value that stays inside its part. -/
structure EntryConfined (k v : Text) : Prop where
  key : Trimmed k
  keySemicolon : ';' ∉ k
  keyEquals : '=' ∉ k
  valueSemicolon : ';' ∉ v

theorem EntryClean.confined {k v : Text} (clean : EntryClean k v) : EntryConfined k v :=
  ⟨clean.key, clean.keySemicolon, clean.keyEquals, clean.valueSemicolon⟩

/-- An entry is safe from the values before it: what they forge is overwritten,
as long as every entry behind stays inside its part. -/
theorem lookup_protected {kv : KvBag} {k v : Text} (found : kv[k]? = some v) (clean : EntryClean k v) (named : k ≠ [])
    (later : ∀ k' v' : Text, kv[k']? = some v' → compare k k' = .lt → EntryConfined k' v') :
    (parseKvBag (serializeKvBag kv))[k]? = some v := by
  have listed : ∀ e ∈ kv.toList, kv[e.1]? = some e.2 := fun e => Std.ExtTreeMap.mem_toList_iff_getElem?_eq_some.mp
  obtain ⟨before, behind, whole⟩ := List.append_of_mem (Std.ExtTreeMap.mem_toList_iff_getElem?_eq_some.mpr found)
  have ordered := Std.ExtTreeMap.ordered_keys_toList (t := kv)
  rw [whole, List.pairwise_append, List.pairwise_cons] at ordered
  have below : ∀ e ∈ behind, compare k e.1 = .lt := ordered.2.1.1
  have confined : ∀ e ∈ (k, v) :: behind, EntryConfined e.1 e.2 := by
    intro e inside
    rcases List.mem_cons.mp inside with rfl | rest
    · exact clean.confined
    · exact later e.1 e.2 (listed e (by simp [whole, rest])) (below e rest)
  have absent : ∀ part ∈ ((k, v) :: behind).map serializeEntry, ';' ∉ part := by
    intro part inside
    obtain ⟨e, entry, rfl⟩ := List.mem_map.mp inside
    exact entry_semicolon (confined e entry).keySemicolon (confined e entry).valueSemicolon
  obtain ⟨earlier, split⟩ := splitOn_intercalate_append (before.map serializeEntry) absent (by simp)
  rw [← List.map_append, ← whole, ← serializeKvBag_eq, List.map_cons] at split
  apply lookup_of_last split
  · have value : trim v = v := clean.value
    rw [parsePart_serializeEntry clean.key clean.keyEquals, value]
    simp [emptyFlag, named]
  · intro other inside read parsed same
    obtain ⟨e, rest, rfl⟩ := List.mem_map.mp inside
    have entry := confined e (List.mem_cons_of_mem _ rest)
    rw [parsePart_serializeEntry entry.key entry.keyEquals] at parsed
    split at parsed
    · cases parsed
    · cases parsed
      obtain rfl : e.1 = k := same
      exact absurd ((below e rest).symm.trans Std.ReflOrd.compare_self) (by simp)

@[simp] theorem withoutEmptyFlag_lookup (kv : KvBag) (k : Text) :
    (withoutEmptyFlag kv)[k]? = kv[k]?.filter fun v => !emptyFlag k v := by
  rw [withoutEmptyFlag, Std.ExtTreeMap.getElem?_filter']

theorem withoutEmptyFlag_lookup_of_ne (kv : KvBag) {k : Text} (named : k ≠ []) :
    (withoutEmptyFlag kv)[k]? = kv[k]? := by
  rw [withoutEmptyFlag_lookup]
  cases kv[k]? <;> simp [emptyFlag, named]

theorem withoutEmptyFlag_eq_self_iff (kv : KvBag) : withoutEmptyFlag kv = kv ↔ kv[([] : Text)]? ≠ some trueText := by
  constructor
  · intro same found
    have gone := withoutEmptyFlag_lookup kv []
    rw [same, found] at gone
    simp [emptyFlag, Option.filter] at gone
  · intro other
    apply Std.ExtTreeMap.ext_getElem?
    intro k
    by_cases named : k = []
    · subst named
      rw [withoutEmptyFlag_lookup]
      cases found : kv[([] : Text)]? with
      | none => rfl
      | some v =>
        have different : v ≠ trueText := by rintro rfl; exact other found
        simp [emptyFlag, different]
    · exact withoutEmptyFlag_lookup_of_ne kv named

theorem withoutEmptyFlag_idem (kv : KvBag) : withoutEmptyFlag (withoutEmptyFlag kv) = withoutEmptyFlag kv := by
  rw [withoutEmptyFlag_eq_self_iff, withoutEmptyFlag_lookup]
  intro found
  rw [Option.filter_eq_some_iff] at found
  simp [emptyFlag] at found

/-- The bags that survive encoding, entry by entry: nothing ill-formed is put
right by its neighbours, because whatever decoding gives is clean. -/
theorem parse_serialize_eq_self_iff (m : KvBag) :
    parseKvBag (serializeKvBag m) = m ↔
      (∀ k v : Text, m[k]? = some v →
        (trim k = k ∧ ';' ∉ k ∧ '=' ∉ k) ∧ trim v = v ∧ ';' ∉ v) ∧ m[([] : Text)]? ≠ some trueText := by
  constructor
  · intro same
    have clean : Clean m := by
      rw [← same]
      exact parseKvBag_clean _
    refine ⟨fun k v found => ?_, ?_⟩
    · have entry := clean k v found
      exact ⟨⟨entry.key, entry.keySemicolon, entry.keyEquals⟩, entry.value, entry.valueSemicolon⟩
    · rw [parse_serialize clean] at same
      exact (withoutEmptyFlag_eq_self_iff m).mp same
  · intro domain
    obtain ⟨entries, flagless⟩ := domain
    have clean : Clean m := by
      intro k v found
      obtain ⟨⟨key, keySemicolon, keyEquals⟩, value, valueSemicolon⟩ := entries k v found
      exact ⟨key, value, keySemicolon, keyEquals, valueSemicolon⟩
    rw [parse_serialize clean]
    exact (withoutEmptyFlag_eq_self_iff m).mpr flagless

/-- Every character of the encoding is a delimiter or comes from an entry. -/
theorem mem_serialize {kv : KvBag} {c : Char} (member : c ∈ serializeKvBag kv) :
    c = ';' ∨ c = '=' ∨ ∃ k v : Text, kv[k]? = some v ∧ (c ∈ k ∨ c ∈ v) := by
  rw [serializeKvBag_eq] at member
  rcases mem_of_mem_intercalate member with same | ⟨part, inside, here⟩
  · exact Or.inl same
  · obtain ⟨⟨k, v⟩, entry, rfl⟩ := List.mem_map.mp inside
    have found := Std.ExtTreeMap.mem_toList_iff_getElem?_eq_some.mp entry
    unfold serializeEntry at here
    split at here
    · exact Or.inr (Or.inr ⟨k, v, found, Or.inl here⟩)
    · rcases List.mem_append.mp here with key | rest
      · exact Or.inr (Or.inr ⟨k, v, found, Or.inl key⟩)
      · rcases List.mem_cons.mp rest with equals | value
        · exact Or.inr (Or.inl equals)
        · exact Or.inr (Or.inr ⟨k, v, found, Or.inr value⟩)

theorem mem_serialize_of_lookup {kv : KvBag} {k v : Text} {c : Char} (found : kv[k]? = some v)
    (member : c ∈ k ∨ c ∈ v) (foreign : c ∉ trueText) : c ∈ serializeKvBag kv := by
  rw [serializeKvBag_eq]
  have entry : serializeEntry (k, v) ∈ kv.toList.map serializeEntry :=
    List.mem_map.mpr ⟨(k, v), Std.ExtTreeMap.mem_toList_iff_getElem?_eq_some.mpr found, rfl⟩
  apply mem_intercalate_of_mem entry
  unfold serializeEntry
  split
  next flag =>
    obtain rfl : v = trueText := flag
    exact member.resolve_right foreign
  next => rcases member with key | value <;> simp [*]

/-- The value given by the last part that has nothing before its `=`. -/
def emptyKeyValue (s : Text) : Option Text :=
  (((s.splitOn ';').map trim).filter (·.head? = some '=')).getLast?.map fun part => trim part.tail

private theorem parsePart_empty_key (part : Text) :
    (parsePart part).toList.filter (·.1 = []) =
      if (trim part).head? = some '=' then [([], trim (trim part).tail)] else [] := by
  simp only [parsePart]
  cases shape : trim part with
  | nil => rfl
  | cons c rest =>
    by_cases equals : c = '='
    · subst equals
      have found : splitOnce '=' ('=' :: rest) = some ([], rest) := splitOnce_append (k := []) (by simp) rest
      simp [found, trim_eq_nil_iff, Blank]
    · simp only [List.isEmpty_cons, Bool.false_eq_true, ↓reduceIte, List.head?_cons, Option.some.injEq, equals]
      cases found : splitOnce '=' (c :: rest) with
      | none => simp
      | some pair =>
        obtain ⟨k, v⟩ := pair
        obtain ⟨-, whole⟩ := splitOnce_eq_some_iff.mp found
        -- the part is trimmed, so a key that trims away must be empty
        have visible : isWhitespace c = false :=
          ((trimmed_iff _).mp (trim_trimmed part)).1 c (by rw [shape]; rfl)
        have named : trim k ≠ [] := by
          intro blank
          cases k with
          | nil => simp [equals] at whole
          | cons d k =>
            obtain ⟨rfl, -⟩ : c = d ∧ _ := by simpa using whole
            have space := (trim_eq_nil_iff _).mp blank c (by simp)
            exact absurd (space.symm.trans visible) (by simp)
        simp [named]

theorem lookup_empty_key (s : Text) : (parseKvBag s)[([] : Text)]? = emptyKeyValue s := by
  have parts : ((s.splitOn ';').filterMap parsePart).filter (·.1 = []) =
      (((s.splitOn ';').map trim).filter (·.head? = some '=')).map fun part => ([], trim part.tail) := by
    induction s.splitOn ';' with
    | nil => rfl
    | cons part rest ih =>
      have first := parsePart_empty_key part
      have grown : (part :: rest).filterMap parsePart = (parsePart part).toList ++ rest.filterMap parsePart := by
        cases found : parsePart part <;> simp [found]
      rw [grown, List.filter_append, ih, first, List.map_cons, List.filter_cons]
      by_cases equals : (trim part).head? = some '=' <;> simp [equals]
  rw [parseKvBag_eq, BTreeMap.getElem?_extend, parts, emptyKeyValue]
  simp [List.getLast?_map, Function.comp_def]

end HawkTui.Proofs.KvBag
