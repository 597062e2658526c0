import ArdOssie.CanonicalHash
import ArdOssie.Library.Bracketed

/-!
# JSON texts

What the canonical text of a value says about its parts: the texts of the items of an array and of the fields of an
object can be read back from it.
-/

namespace ArdOssie

/-- The documented behaviour of the standard library on ASCII text and on floats. -/
structure Platform.Documented (platform : Platform) : Prop where
  nfc_ascii : ∀ t : Text, (∀ c ∈ t, c.toNat < 128) → platform.nfc t = t
  floatRepr_plain : ∀ q, ∀ c ∈ platform.floatRepr q, Bracketed.isPlain c
  floatRepr_nonempty : ∀ q, platform.floatRepr q ≠ []

namespace Json

open Bracketed

variable {platform : Platform}

/-! ### Closed texts -/

private theorem scan_quoted {c : Char} (hquote : c ≠ '"') (hslash : c ≠ '\\') (depth : ℕ) (t : Text) :
    scan (depth, .quoted) (c :: t) = scan (depth, .quoted) t := by
  simp [scan, stops, next, hquote, hslash]

private theorem scan_escaped (c : Char) (depth : ℕ) (t : Text) :
    scan (depth, .quoted) ('\\' :: c :: t) = scan (depth, .quoted) t := by
  simp [scan, stops, next]

private theorem scan_hex (n count depth : ℕ) (t : Text) :
    scan (depth, .quoted) (Text.hex count n ++ t) = scan (depth, .quoted) t := by
  have hdigit : ∀ d : Fin 16, Text.hexDigit d ≠ '"' ∧ Text.hexDigit d ≠ '\\' := by decide
  have hall : ∀ c ∈ Text.hex count n, c ≠ '"' ∧ c ≠ '\\' := by
    intro c hc
    rw [Text.hex, List.mem_reverse, List.mem_map] at hc
    obtain ⟨i, -, rfl⟩ := hc
    exact hdigit ⟨n / 16 ^ i % 16, Nat.mod_lt _ (by omega)⟩
  generalize Text.hex count n = digits at hall
  induction digits with
  | nil => rfl
  | cons c digits ih =>
    obtain ⟨hquote, hslash⟩ := hall c (by simp)
    rw [List.cons_append, scan_quoted hquote hslash]
    exact ih fun d hd => hall d (by simp [hd])

private theorem scan_escapeChar (c : Char) (depth : ℕ) (t : Text) :
    scan (depth, .quoted) (escapeChar c ++ t) = scan (depth, .quoted) t := by
  have hu : "\\u".toList = ['\\', 'u'] := rfl
  unfold escapeChar
  split_ifs with h₁ h₂ h₃ h₄ h₅ h₆ h₇ h₈
  · exact scan_escaped _ depth t
  · exact scan_escaped _ depth t
  · exact scan_escaped _ depth t
  · exact scan_escaped _ depth t
  · exact scan_escaped _ depth t
  · exact scan_escaped _ depth t
  · exact scan_escaped _ depth t
  · rw [hu, List.append_assoc, List.cons_append, List.cons_append, List.nil_append, scan_escaped, scan_hex]
  · exact scan_quoted h₁ h₂ depth t

theorem closed_quote (t : Text) : Closed (quote t) := by
  intro depth
  have hbody : ∀ u, scan (depth, .quoted) (t.flatMap escapeChar ++ u) = scan (depth, .quoted) u := by
    intro u
    induction t with
    | nil => rfl
    | cons c t ih => rw [List.flatMap_cons, List.append_assoc, scan_escapeChar, ih]
  have hopen : scan (depth, .plain) (quote t) = scan (depth, .quoted) (t.flatMap escapeChar ++ ['"']) := by
    simp [quote, scan, stops, next, isDelimiter]
  rw [hopen, hbody]
  simp [scan, stops, next]

private theorem decimal_plain (n : ℕ) : ∀ c ∈ Text.decimal n, isPlain c := by
  intro c hc
  have hdigit : c.isDigit := Nat.isDigit_of_mem_toDigits (by decide) (by decide) hc
  simp only [Char.isDigit, Bool.and_eq_true, decide_eq_true_eq] at hdigit
  simp only [isPlain, isDelimiter, Bool.not_eq_true', Bool.or_eq_false_iff, decide_eq_false_iff_not]
  refine ⟨⟨⟨⟨⟨?_, ?_⟩, ?_⟩, ?_⟩, ?_⟩, ?_⟩ <;> rintro rfl <;> revert hdigit <;> decide

private theorem closed_decimal (n : ℕ) : Closed (Text.decimal n) := closed_of_plain (decimal_plain n)

theorem documented_ascii : Platform.ascii.Documented where
  nfc_ascii _ _ := rfl
  floatRepr_plain q c hc := by
    rcases List.mem_append.1 hc with hdigit | hfraction
    · exact decimal_plain _ c hdigit
    · have hall : ['.', '0'].all isPlain = true := by decide
      exact List.all_eq_true.1 hall c hfraction
  floatRepr_nonempty q := by simp [Platform.ascii]

private theorem closed_literal :
    ∀ t ∈ ["null", "true", "false"].map String.toList, (∀ c ∈ t, isPlain c = true) ∧ t ≠ [] := by
  intro t ht
  have hall : (["null", "true", "false"].map String.toList).all (fun t => t.all isPlain && !t.isEmpty) = true := by
    decide
  have hboth := List.all_eq_true.1 hall t ht
  rw [Bool.and_eq_true, Bool.not_eq_true', List.isEmpty_eq_false_iff] at hboth
  exact ⟨List.all_eq_true.1 hboth.1, hboth.2⟩

mutual

/-- The text of a value is closed and not empty. -/
theorem closed_dumps (hp : platform.Documented) : ∀ v : Json, Closed (dumps platform v) ∧ dumps platform v ≠ []
  | .null => (closed_literal "null".toList (by decide)).imp_left closed_of_plain
  | .bool true => (closed_literal "true".toList (by decide)).imp_left closed_of_plain
  | .bool false => (closed_literal "false".toList (by decide)).imp_left closed_of_plain
  | .int n => by
    have hne : Text.decimal n.natAbs ≠ [] := Nat.toDigits_ne_nil
    rw [dumps]
    split
    · exact ⟨(closed_decimal _).cons (by decide), by simp⟩
    · exact ⟨closed_decimal _, hne⟩
  | .float q => ⟨closed_of_plain (hp.floatRepr_plain q), hp.floatRepr_nonempty q⟩
  | .str t => ⟨closed_quote t, by simp [dumps, quote]⟩
  | .arr items => by
    refine ⟨closed_brackets (Or.inl rfl) (Or.inl rfl) (closedInside_joined fun t ht => ?_), by simp [dumps]⟩
    exact (closed_dumpsItems hp items t ht).1
  | .obj fields => by
    refine ⟨closed_brackets (Or.inr rfl) (Or.inr rfl) (closedInside_joined fun t ht => ?_), by simp [dumps]⟩
    obtain ⟨p, hp', rfl⟩ := List.mem_map.1 ht
    have hvalue := closed_dumpsFields hp fields p (mem_sortBy.1 hp')
    exact (closed_quote p.1).append (hvalue.cons (by decide))

theorem closed_dumpsItems (hp : platform.Documented) :
    ∀ items : List Json, ∀ t ∈ dumpsItems platform items, Closed t ∧ t ≠ []
  | [], _, h => by cases h
  | item :: items, t, h => by
    rw [dumpsItems, List.mem_cons] at h
    rcases h with rfl | h
    · exact closed_dumps hp item
    · exact closed_dumpsItems hp items t h

theorem closed_dumpsFields (hp : platform.Documented) :
    ∀ fields : List (Text × Json), ∀ p ∈ dumpsFields platform fields, Closed p.2
  | [], _, h => by cases h
  | field :: fields, p, h => by
    rw [dumpsFields, List.mem_cons] at h
    rcases h with rfl | h
    · exact closed_dumpsField hp field
    · exact closed_dumpsFields hp fields p h

theorem closed_dumpsField (hp : platform.Documented) : ∀ field : Text × Json, Closed (dumpsField platform field).2
  | (_, value) => (closed_dumps hp value).1

end

/-! ### Arrays and objects -/

theorem dumpsItems_eq_map (items : List Json) : dumpsItems platform items = items.map (dumps platform) := by
  induction items with
  | nil => rfl
  | cons item items ih => rw [dumpsItems, ih, List.map_cons]

theorem dumpsFields_eq_map (fields : List (Text × Json)) :
    dumpsFields platform fields = fields.map fun p => (p.1, dumps platform p.2) := by
  induction fields with
  | nil => rfl
  | cons field fields ih => rw [dumpsFields, ih, List.map_cons, dumpsField]

/-- Two arrays have one text exactly if their items have the same texts. -/
theorem dumps_arr_iff (hp : platform.Documented) {items items' : List Json} :
    dumps platform (arr items) = dumps platform (arr items') ↔
      items.map (dumps platform) = items'.map (dumps platform) := by
  rw [← dumpsItems_eq_map, ← dumpsItems_eq_map]
  constructor
  · intro h
    have hbody := (List.cons.inj h).2
    exact joined_injective (Or.inl rfl) (closed_dumpsItems hp items) (closed_dumpsItems hp items') hbody
  · intro h
    rw [dumps, dumps, h]

/-- The text of a field. -/
private def part (p : Text × Text) : Text := quote p.1 ++ ':' :: p.2

private theorem eq_of_map_part {l l' : List (Text × Text)} (hkeys : l.map Prod.fst = l'.map Prod.fst)
    (hparts : l.map part = l'.map part) : l = l' := by
  induction l generalizing l' with
  | nil =>
    cases l' with
    | nil => rfl
    | cons p l' => simp at hkeys
  | cons p l ih =>
    cases l' with
    | nil => simp at hkeys
    | cons q l' =>
      rw [List.map_cons, List.map_cons] at hkeys hparts
      obtain ⟨hkey, hkeys⟩ := List.cons.inj hkeys
      obtain ⟨hpart, hparts⟩ := List.cons.inj hparts
      have hvalue : p.2 = q.2 := by
        unfold part at hpart
        rw [hkey] at hpart
        exact (List.cons.inj (List.append_cancel_left hpart)).2
      rw [ih hkeys hparts, Prod.ext hkey hvalue]

private theorem map_fst_sortBy_eq {l l' : List (Text × Text)} (hkeys : l.map Prod.fst = l'.map Prod.fst)
    (hnodup : (l.map Prod.fst).Nodup) : (sortBy Prod.fst l).map Prod.fst = (sortBy Prod.fst l').map Prod.fst := by
  have hperm : ((sortBy Prod.fst l).map Prod.fst).Perm ((sortBy Prod.fst l').map Prod.fst) := by
    refine ((sortBy_perm Prod.fst l).map Prod.fst).trans ?_
    rw [hkeys]
    exact ((sortBy_perm Prod.fst l').map Prod.fst).symm
  have hnodup' : (l'.map Prod.fst).Nodup := hkeys ▸ hnodup
  exact @eq_of_pairwise_key_lt Text Text _ id _ _ (List.pairwise_map.2 (sortBy_pairwise_lt hnodup))
    (List.pairwise_map.2 (sortBy_pairwise_lt hnodup')) hperm

/-- Two objects with the same distinct keys have one text exactly if their fields have the same texts. -/
theorem dumps_obj_iff (hp : platform.Documented) {fields fields' : List (Text × Json)}
    (hkeys : fields.map Prod.fst = fields'.map Prod.fst) (hnodup : (fields.map Prod.fst).Nodup) :
    dumps platform (obj fields) = dumps platform (obj fields') ↔
      dumpsFields platform fields = dumpsFields platform fields' := by
  have hmap : ∀ fields : List (Text × Json), (dumpsFields platform fields).map Prod.fst = fields.map Prod.fst := by
    intro fields
    rw [dumpsFields_eq_map, List.map_map]
    rfl
  have hparts : ∀ fields : List (Text × Json), ∀ t ∈ (sortBy Prod.fst (dumpsFields platform fields)).map part,
      Closed t ∧ t ≠ [] := by
    intro fields t ht
    obtain ⟨p, hp', rfl⟩ := List.mem_map.1 ht
    have hvalue := closed_dumpsFields hp fields p (mem_sortBy.1 hp')
    exact ⟨(closed_quote p.1).append (hvalue.cons (by decide)), by simp [part]⟩
  constructor
  · intro h
    have hbody := (List.cons.inj h).2
    have hsorted := eq_of_map_part (map_fst_sortBy_eq (by rw [hmap, hmap, hkeys]) (by rwa [hmap]))
      (joined_injective (Or.inr rfl) (hparts fields) (hparts fields') hbody)
    have hperm : (dumpsFields platform fields).Perm (dumpsFields platform fields') := by
      refine (sortBy_perm Prod.fst _).symm.trans ?_
      rw [hsorted]
      exact sortBy_perm Prod.fst _
    refine eq_of_perm_of_map_eq hperm (by rw [hmap, hmap, hkeys]) ?_
    rwa [hmap, ← hkeys]
  · intro h
    rw [dumps, dumps, h]

/-! ### Strings -/

/-- The character that an escape with one letter stands for. -/
private def escapedBy (c : Char) : Char :=
  if c = 'n' then '\n' else if c = 'r' then '\r' else if c = 't' then '\t' else if c = 'b' then Char.ofNat 8
  else if c = 'f' then Char.ofNat 12 else c

private theorem escapeChar_cases (c : Char) :
    (∃ x, x ≠ 'u' ∧ escapeChar c = ['\\', x] ∧ c = escapedBy x) ∨
      (escapeChar c = '\\' :: 'u' :: Text.hex 4 c.toNat ∧ c.toNat < 32) ∨
      (escapeChar c = [c] ∧ c ≠ '\\' ∧ c ≠ '"') := by
  have ofNat : ∀ n, c.toNat = n → c = Char.ofNat n := fun n hn => by rw [← hn, Char.ofNat_toNat]
  unfold escapeChar
  split_ifs with hquote hslash hn hr ht hb hf hu
  · exact Or.inl ⟨'"', by decide, rfl, by rw [hquote]; decide⟩
  · exact Or.inl ⟨'\\', by decide, rfl, by rw [hslash]; decide⟩
  · exact Or.inl ⟨'n', by decide, rfl, by rw [hn]; decide⟩
  · exact Or.inl ⟨'r', by decide, rfl, by rw [hr]; decide⟩
  · exact Or.inl ⟨'t', by decide, rfl, by rw [ht]; decide⟩
  · exact Or.inl ⟨'b', by decide, rfl, ofNat 8 hb⟩
  · exact Or.inl ⟨'f', by decide, rfl, ofNat 12 hf⟩
  · exact Or.inr (Or.inl ⟨rfl, hu⟩)
  · exact Or.inr (Or.inr ⟨rfl, hslash, hquote⟩)

private theorem hex_injOn {c c' : Char} (hc : c.toNat < 32) (hc' : c'.toNat < 32)
    (h : Text.hex 4 c.toNat = Text.hex 4 c'.toNat) : c = c' := by
  have hall : ∀ n m : Fin 32, Text.hex 4 n = Text.hex 4 m → n = m := by decide +kernel
  have hnat : c.toNat = c'.toNat := Fin.mk.inj (hall ⟨c.toNat, hc⟩ ⟨c'.toNat, hc'⟩ h)
  rw [← Char.ofNat_toNat c, hnat, Char.ofNat_toNat]

/-- The escapes are read off a text one after the other. -/
private theorem escapeChar_append_inj {c c' : Char} {u u' : Text} (h : escapeChar c ++ u = escapeChar c' ++ u') :
    c = c' ∧ u = u' := by
  rcases escapeChar_cases c with ⟨x, hx, hc, rfl⟩ | ⟨hc, hlt⟩ | ⟨hc, hslash, -⟩
  · rcases escapeChar_cases c' with ⟨x', -, hc', rfl⟩ | ⟨hc', -⟩ | ⟨hc', hslash', -⟩
    · rw [hc, hc'] at h
      simp only [List.cons_append, List.nil_append, List.cons.injEq, true_and] at h
      exact ⟨by rw [h.1], h.2⟩
    · rw [hc, hc'] at h
      simp only [List.cons_append, List.nil_append, List.cons.injEq, true_and] at h
      exact absurd h.1 hx
    · rw [hc, hc'] at h
      simp only [List.cons_append, List.nil_append, List.cons.injEq] at h
      exact absurd h.1.symm hslash'
  · rcases escapeChar_cases c' with ⟨x', hx', hc', rfl⟩ | ⟨hc', hlt'⟩ | ⟨hc', hslash', -⟩
    · rw [hc, hc'] at h
      simp only [List.cons_append, List.nil_append, List.cons.injEq, true_and] at h
      exact absurd h.1.symm hx'
    · rw [hc, hc'] at h
      simp only [List.cons_append, List.cons.injEq, true_and] at h
      obtain ⟨hhex, hu⟩ := List.append_inj h (by simp [Text.hex])
      exact ⟨hex_injOn hlt hlt' hhex, hu⟩
    · rw [hc, hc'] at h
      simp only [List.cons_append, List.nil_append, List.cons.injEq] at h
      exact absurd h.1.symm hslash'
  · rcases escapeChar_cases c' with ⟨x', -, hc', rfl⟩ | ⟨hc', -⟩ | ⟨hc', -, -⟩
    · rw [hc, hc'] at h
      simp only [List.cons_append, List.nil_append, List.cons.injEq] at h
      exact absurd h.1 hslash
    · rw [hc, hc'] at h
      simp only [List.cons_append, List.nil_append, List.cons.injEq] at h
      exact absurd h.1 hslash
    · rw [hc, hc'] at h
      simpa only [List.cons_append, List.nil_append, List.cons.injEq] using h

private theorem escapeChar_ne_quote {c : Char} {u u' : Text} : escapeChar c ++ u ≠ '"' :: u' := by
  intro h
  rcases escapeChar_cases c with ⟨x, -, hc, -⟩ | ⟨hc, -⟩ | ⟨hc, -, hquote⟩
  · rw [hc] at h
    simp at h
  · rw [hc] at h
    simp at h
  · rw [hc, List.singleton_append] at h
    exact hquote (List.cons.inj h).1

/-- Different texts have different JSON strings. -/
theorem quote_injective : Function.Injective quote := by
  intro t t' h
  have hbody : t.flatMap escapeChar ++ ['"'] = t'.flatMap escapeChar ++ ['"'] := (List.cons.inj h).2
  clear h
  induction t generalizing t' with
  | nil =>
    cases t' with
    | nil => rfl
    | cons c' t' =>
      rw [List.flatMap_cons, List.append_assoc] at hbody
      exact absurd hbody.symm escapeChar_ne_quote
  | cons c t ih =>
    cases t' with
    | nil =>
      rw [List.flatMap_cons, List.append_assoc] at hbody
      exact absurd hbody escapeChar_ne_quote
    | cons c' t' =>
      rw [List.flatMap_cons, List.flatMap_cons, List.append_assoc, List.append_assoc] at hbody
      obtain ⟨rfl, hrest⟩ := escapeChar_append_inj hbody
      rw [ih hrest]

/-! ### Canonical texts -/

/-- The text that a canonical hash digests. -/
def canonicalText (platform : Platform) (v : Json) : Text := (v.normalize platform volatileFields).dumps platform

private theorem setField_of_not_mem {key : Text} {value : Json} {done : List (Text × Json)}
    (h : key ∉ done.map Prod.fst) : setField key value done = done ++ [(key, value)] := by
  induction done with
  | nil => rfl
  | cons field done ih =>
    simp only [List.map_cons, List.mem_cons, not_or] at h
    rw [setField, if_neg (Ne.symm h.1), ih h.2]
    rfl

/-- The field names of a record: distinct, not volatile, and in ASCII. -/
def PlainKeys (keys : List String) : Prop :=
  keys.Nodup ∧ ∀ k ∈ keys, k.toList ∉ volatileFields ∧ ∀ c ∈ k.toList, c.toNat < 128

instance (keys : List String) : Decidable (PlainKeys keys) :=
  decidable_of_iff (keys.Nodup ∧ (keys.all fun k => decide (k.toList ∉ volatileFields) &&
    k.toList.all fun c => decide (c.toNat < 128)) = true) (by simp [PlainKeys])

private theorem normalizeField_snd (field : Text × Json) :
    (normalizeField platform volatileFields field).2 = normalize platform volatileFields field.2 := by
  obtain ⟨key, value⟩ := field
  rw [normalizeField]

private theorem normalizeFields_eq (hp : platform.Documented) {fields done : List (Text × Json)}
    (hnodup : ((done ++ fields).map Prod.fst).Nodup)
    (hkeys : ∀ p ∈ fields, p.1 ∉ volatileFields ∧ ∀ c ∈ p.1, c.toNat < 128) :
    normalizeFields platform volatileFields fields done =
      done ++ fields.map fun p => (p.1, normalize platform volatileFields p.2) := by
  induction fields generalizing done with
  | nil => simp [normalizeFields]
  | cons field fields ih =>
    obtain ⟨hvolatile, hascii⟩ := hkeys field (by simp)
    have hfresh : field.1 ∉ done.map Prod.fst := by
      intro hmem
      rw [List.map_append, List.map_cons] at hnodup
      exact (List.nodup_append.1 hnodup).2.2 _ hmem _ (by simp) rfl
    rw [normalizeFields, if_neg hvolatile, hp.nfc_ascii field.1 hascii, setField_of_not_mem hfresh, ih ?_ ?_]
    · rw [normalizeField_snd, List.append_assoc]
      rfl
    · simpa using hnodup
    · exact fun p hp' => hkeys p (by simp [hp'])

theorem normalize_record (hp : platform.Documented) {fields : List (String × Json)}
    (hkeys : PlainKeys (fields.map Prod.fst)) : normalize platform volatileFields (record fields) =
      obj (fields.map fun p => (p.1.toList, normalize platform volatileFields p.2)) := by
  have hnodup : ((fields.map fun p => (p.1.toList, p.2)).map Prod.fst).Nodup := by
    rw [List.map_map, show (Prod.fst ∘ fun p : String × Json => (p.1.toList, p.2)) = String.toList ∘ Prod.fst from rfl,
      ← List.map_map]
    exact hkeys.1.map (fun _ _ h => String.toList_inj.1 h)
  rw [record, normalize, normalizeFields_eq hp (by simpa using hnodup), List.nil_append, List.map_map]
  · rfl
  · intro p hp'
    obtain ⟨field, hfield, rfl⟩ := List.mem_map.1 hp'
    exact hkeys.2 field.1 (List.mem_map_of_mem hfield)

/-- Two records with the same field names have one canonical text exactly if their fields have. -/
theorem canonicalText_record_iff (hp : platform.Documented) {fields fields' : List (String × Json)}
    (hsame : fields.map Prod.fst = fields'.map Prod.fst) (hkeys : PlainKeys (fields.map Prod.fst)) :
    canonicalText platform (record fields) = canonicalText platform (record fields') ↔
      fields.map (fun p => canonicalText platform p.2) = fields'.map fun p => canonicalText platform p.2 := by
  unfold canonicalText
  rw [normalize_record hp hkeys, normalize_record hp (hsame ▸ hkeys), dumps_obj_iff hp, dumpsFields_eq_map,
    dumpsFields_eq_map, List.map_map, List.map_map]
  · constructor
    · intro h
      have hsnd := congrArg (List.map Prod.snd) h
      simpa [List.map_map, Function.comp_def] using hsnd
    · intro h
      have hlength : fields.length = fields'.length := by simpa using congrArg List.length hsame
      refine List.ext_getElem (by simpa using hlength) fun i hi hi' => ?_
      have hkey := congrArg (fun keys => keys[i]?) hsame
      have hvalue := congrArg (fun values => values[i]?) h
      simp only [List.length_map] at hi hi'
      simp only [List.getElem?_map, List.getElem?_eq_getElem hi, List.getElem?_eq_getElem hi', Option.map_some,
        Option.some_inj] at hkey hvalue
      simp [hkey, hvalue]
  · have h := congrArg (List.map String.toList) hsame
    simpa [List.map_map, Function.comp_def] using h
  · have h := hkeys.1.map (fun _ _ h => String.toList_inj.1 h : Function.Injective String.toList)
    simpa [List.map_map, Function.comp_def] using h

/-- Two arrays have one canonical text exactly if their items have. -/
theorem canonicalText_arr_iff (hp : platform.Documented) {items items' : List Json} :
    canonicalText platform (arr items) = canonicalText platform (arr items') ↔
      items.map (canonicalText platform) = items'.map (canonicalText platform) := by
  have hitems : ∀ items : List Json, normalizeItems platform volatileFields items =
      items.map (normalize platform volatileFields) := by
    intro items
    induction items with
    | nil => rfl
    | cons item items ih => rw [normalizeItems, ih, List.map_cons]
  unfold canonicalText
  rw [normalize, normalize, dumps_arr_iff hp, hitems, hitems, List.map_map, List.map_map]
  rfl

end Json

end ArdOssie
