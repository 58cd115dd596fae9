import AgentPay.Library.Json

/-!
# The canonical text determines the document

Two documents with one compact text are one document up to the order of the fields of their objects
(`dumps_injective`), and no text continues another: a document can be split off the front of a text
(`read_unique`). Escaped characters are read back one by one; a number, a boolean or a null ends at
the first delimiter; the brackets of arrays and objects carry the rest by induction.
-/

set_option autoImplicit false

namespace AgentPay.Library.Json

/-! ## Strings -/

/-- The value of a hexadecimal digit. -/
def hexValue (c : Char) : ℕ :=
  if c.toNat < 58 then c.toNat - 48 else c.toNat - 87

theorem hexValue_digitChar {n : ℕ} (h : n < 16) : hexValue (Nat.digitChar n) = n := by
  interval_cases n <;> decide

/-- Four hexadecimal digits at the front of a text. -/
def readHex4 : List Char → Option (ℕ × List Char)
  | a :: b :: c :: d :: rest =>
      some (((hexValue a * 16 + hexValue b) * 16 + hexValue c) * 16 + hexValue d, rest)
  | _ => none

theorem readHex4_append {n : ℕ} (h : n < 65536) (rest : List Char) :
    readHex4 (hex4 n ++ rest) = some (n, rest) := by
  have hdigit : ∀ m, hexValue (Nat.digitChar (m % 16)) = m % 16 := fun m =>
    hexValue_digitChar (Nat.mod_lt m (by norm_num))
  simp only [hex4, List.map_cons, List.map_nil, List.cons_append, List.nil_append, readHex4, hdigit,
    Option.some.injEq, Prod.mk.injEq, and_true]
  omega

/-- A character that is no surrogate has four digits or is beyond the basic plane. -/
theorem toNat_range (c : Char) : c.toNat < 55296 ∨ 57343 < c.toNat ∧ c.toNat < 1114112 := c.valid

/-- A lower-case hexadecimal digit. -/
def isHex (c : Char) : Bool := c.isDigit || (decide ('a' ≤ c) && decide (c ≤ 'f'))

theorem isHex_digitChar {n : ℕ} (h : n < 16) : isHex (Nat.digitChar n) = true := by
  interval_cases n <;> decide

theorem isHex_hex4 (n : ℕ) : ∀ c ∈ hex4 n, isHex c = true := by
  intro c hc
  obtain ⟨m, hm, rfl⟩ := List.mem_map.1 hc
  refine isHex_digitChar ?_
  simp only [List.mem_cons, List.not_mem_nil, or_false] at hm
  omega

/-- A text in hexadecimal, eight digits for each character. -/
def hexText (s : String) : String :=
  String.ofList (s.toList.flatMap fun c => hex4 (c.toNat / 65536) ++ hex4 (c.toNat % 65536))

theorem isHex_hexText (s : String) : ∀ c ∈ (hexText s).toList, isHex c = true := by
  intro c hc
  rw [hexText, String.toList_ofList, List.mem_flatMap] at hc
  obtain ⟨d, -, hc⟩ := hc
  rcases List.mem_append.1 hc with hc | hc
  · exact isHex_hex4 _ c hc
  · exact isHex_hex4 _ c hc

theorem hexText_injective : Function.Injective hexText := by
  have hlist : ∀ s t : List Char,
      s.flatMap (fun c => hex4 (c.toNat / 65536) ++ hex4 (c.toNat % 65536)) =
        t.flatMap (fun c => hex4 (c.toNat / 65536) ++ hex4 (c.toNat % 65536)) → s = t := by
    intro s
    induction s with
    | nil =>
        intro t h
        cases t with
        | nil => rfl
        | cons d t => simp [hex4] at h
    | cons c s ih =>
        intro t h
        cases t with
        | nil => simp [hex4] at h
        | cons d t =>
            have hc : c.toNat < 1114112 := by have := toNat_range c; omega
            have hd : d.toNat < 1114112 := by have := toNat_range d; omega
            rw [List.flatMap_cons, List.flatMap_cons, List.append_assoc, List.append_assoc] at h
            have hhigh := congrArg readHex4 h
            rw [readHex4_append (by omega), readHex4_append (by omega), Option.some.injEq,
              Prod.mk.injEq] at hhigh
            have hlow := congrArg readHex4 hhigh.2
            rw [readHex4_append (by omega), readHex4_append (by omega), Option.some.injEq,
              Prod.mk.injEq] at hlow
            have hcd : c.toNat = d.toNat := by omega
            rw [Char.toNat_inj.1 hcd, ih t hlow.2]
  intro s t h
  exact String.toList_inj.1 (hlist _ _ (String.ofList_injective h))

/-- The character after `\u`: a surrogate pair is one character. -/
def readUnicode (cs : List Char) : Option (Char × List Char) :=
  (readHex4 cs).bind fun (n, rest) =>
    if 55296 ≤ n ∧ n < 56320 then
      (readHex4 (rest.drop 2)).map fun (m, rest) =>
        (Char.ofNat (65536 + (n - 55296) * 1024 + (m - 56320)), rest)
    else some (Char.ofNat n, rest)

/-- The character of a one-letter escape. -/
def simpleEscape (c : Char) : Option Char :=
  if c = '"' then some '"'
  else if c = '\\' then some '\\'
  else if c = 'n' then some '\n'
  else if c = 'r' then some '\r'
  else if c = 't' then some '\t'
  else if c = 'f' then some (Char.ofNat 12)
  else if c = 'b' then some (Char.ofNat 8)
  else none

/-- The first character of a quoted text, `none` at its closing quote. -/
def readChar : List Char → Option (Char × List Char)
  | [] => none
  | c :: rest =>
      if c = '"' then none
      else if c = '\\' then
        match rest with
        | [] => none
        | e :: rest' =>
            if e = 'u' then readUnicode rest' else (simpleEscape e).map fun d => (d, rest')
      else some (c, rest)

theorem readUnicode_basic {n : ℕ} (h : n < 65536) (hs : ¬ (55296 ≤ n ∧ n < 56320))
    (rest : List Char) : readUnicode (hex4 n ++ rest) = some (Char.ofNat n, rest) := by
  rw [readUnicode, readHex4_append h, Option.bind_some]
  simp only
  rw [if_neg hs]

theorem readUnicode_pair {v : ℕ} (h : v < 1048576) (rest : List Char) :
    readUnicode (hex4 (55296 + v / 1024) ++ '\\' :: 'u' :: (hex4 (56320 + v % 1024) ++ rest)) =
      some (Char.ofNat (65536 + v), rest) := by
  have hhigh : 55296 + v / 1024 < 56320 := by omega
  have hlow : 56320 + v % 1024 < 65536 := by omega
  have hvalue : 65536 + (55296 + v / 1024 - 55296) * 1024 + (56320 + v % 1024 - 56320) =
      65536 + v := by omega
  rw [readUnicode, readHex4_append (hhigh.trans (by norm_num)), Option.bind_some]
  simp only
  rw [if_pos ⟨Nat.le_add_right _ _, hhigh⟩, List.drop_succ_cons, List.drop_succ_cons, List.drop_zero,
    readHex4_append hlow, Option.map_some]
  simp only [hvalue]

theorem readChar_unicode (cs : List Char) : readChar ('\\' :: 'u' :: cs) = readUnicode cs := rfl

theorem readChar_escapeChar (c : Char) (rest : List Char) :
    readChar (escapeChar c ++ rest) = some (c, rest) := by
  have hback : ∀ n : ℕ, c.toNat = n → Char.ofNat n = c := by
    rintro n rfl
    exact Char.ofNat_toNat c
  have hvalid := toNat_range c
  unfold escapeChar
  split_ifs with h₁ h₂ h₃ h₄ h₅ h₆ h₇ h₈ h₉
  · subst h₁
    rfl
  · subst h₂
    rfl
  · subst h₃
    rfl
  · subst h₄
    rfl
  · subst h₅
    rfl
  · rw [← hback 12 h₆]
    rfl
  · rw [← hback 8 h₇]
    rfl
  · simp only [List.cons_append, List.nil_append, readChar, if_neg h₁, if_neg h₂]
  · -- an escape of the basic plane is no surrogate
    rw [List.cons_append, List.cons_append, readChar_unicode, readUnicode_basic h₉ (by omega),
      hback _ rfl]
  · -- a surrogate pair
    simp only [List.cons_append, List.append_assoc]
    rw [readChar_unicode, readUnicode_pair (by omega), hback _ (by omega)]

theorem readChar_quote (rest : List Char) : readChar ('"' :: rest) = none := rfl

/-- An escaped text ends at its closing quote. -/
theorem escaped_unique : ∀ (s t x y : List Char),
    s.flatMap escapeChar ++ '"' :: x = t.flatMap escapeChar ++ '"' :: y → s = t ∧ x = y
  | [], [], _, _, h => ⟨rfl, (List.cons.inj h).2⟩
  | [], d :: t, x, y, h => by
      have hread := congrArg readChar h
      rw [List.flatMap_nil, List.nil_append, readChar_quote, List.flatMap_cons, List.append_assoc,
        readChar_escapeChar] at hread
      cases hread
  | c :: s, [], x, y, h => by
      have hread := congrArg readChar h
      rw [List.flatMap_nil, List.nil_append, readChar_quote, List.flatMap_cons, List.append_assoc,
        readChar_escapeChar] at hread
      cases hread
  | c :: s, d :: t, x, y, h => by
      have hread := congrArg readChar h
      rw [List.flatMap_cons, List.flatMap_cons, List.append_assoc, List.append_assoc,
        readChar_escapeChar, readChar_escapeChar, Option.some.injEq, Prod.mk.injEq] at hread
      obtain ⟨rfl, hrest⟩ := hread
      obtain ⟨rfl, hxy⟩ := escaped_unique s t x y hrest
      exact ⟨rfl, hxy⟩

theorem toList_quote (s : String) :
    (quote s).toList = '"' :: (s.toList.flatMap escapeChar ++ ['"']) := by
  rw [quote, String.toList_ofList, List.cons_append]

/-- A quoted string can be split off the front of a text. -/
theorem quote_unique {s t : String} {x y : List Char}
    (h : (quote s).toList ++ x = (quote t).toList ++ y) : s = t ∧ x = y := by
  rw [toList_quote, toList_quote, List.cons_append, List.cons_append, List.append_assoc,
    List.append_assoc] at h
  obtain ⟨hs, hxy⟩ := escaped_unique _ _ _ _ (List.cons.inj h).2
  exact ⟨String.toList_inj.1 hs, hxy⟩

/-! ## Fields in the order of their keys -/

universe u v

variable {α : Type u} {β : Type v}

/-- Insertion of a field by its key. -/
def insertKey (f : String × α) : List (String × α) → List (String × α)
  | [] => [f]
  | g :: rest => if f.1 < g.1 then f :: g :: rest else g :: insertKey f rest

/-- Fields in the order of their keys. -/
def sortKeys : List (String × α) → List (String × α)
  | [] => []
  | f :: rest => insertKey f (sortKeys rest)

theorem sortFields_eq (fs : List (String × String)) : sortFields fs = sortKeys fs := by
  have hinsert : ∀ (f : String × String) l, insertField f l = insertKey f l := by
    intro f l
    induction l with
    | nil => rfl
    | cons g rest ih => rw [insertField, insertKey, ih]
  induction fs with
  | nil => rfl
  | cons f rest ih => rw [sortFields, sortKeys, ih, hinsert]

theorem sortKeys_map (g : α → β) (fs : List (String × α)) :
    sortKeys (fs.map fun p => (p.1, g p.2)) = (sortKeys fs).map fun p => (p.1, g p.2) := by
  have hinsert : ∀ (f : String × α) l, insertKey (f.1, g f.2) (l.map fun p => (p.1, g p.2)) =
      (insertKey f l).map fun p => (p.1, g p.2) := by
    intro f l
    induction l with
    | nil => rfl
    | cons q rest ih =>
        simp only [List.map_cons, insertKey, ih]
        split
        · rfl
        · rfl
  induction fs with
  | nil => rfl
  | cons f rest ih => rw [List.map_cons, sortKeys, ih, hinsert, sortKeys]

theorem mem_insertKey {f p : String × α} {fs : List (String × α)} :
    p ∈ insertKey f fs ↔ p = f ∨ p ∈ fs := by
  induction fs with
  | nil => simp [insertKey]
  | cons q rest ih =>
      rw [insertKey]
      split
      · rw [List.mem_cons]
      · rw [List.mem_cons, List.mem_cons]
        exact (or_congr_right ih).trans or_left_comm

theorem mem_sortKeys {fs : List (String × α)} {p : String × α} : p ∈ sortKeys fs ↔ p ∈ fs := by
  induction fs with
  | nil => exact Iff.rfl
  | cons f rest ih =>
      rw [sortKeys, mem_insertKey, List.mem_cons]
      exact or_congr_right ih

/-! ## The document of a text -/

mutual
/-- The document with the fields of each object in the order of their keys. -/
def canon : Json → Json
  | null => null
  | bool b => bool b
  | int n => int n
  | float q => float q
  | str s => str s
  | arr items => arr (canonItems items)
  | obj fields => obj (sortKeys (canonFields fields))
/-- The items of an array. -/
def canonItems : List Json → List Json
  | [] => []
  | x :: xs => canon x :: canonItems xs
/-- The fields of an object. -/
def canonFields : List (String × Json) → List (String × Json)
  | [] => []
  | (k, x) :: xs => (k, canon x) :: canonFields xs
end

theorem canonItems_eq (xs : List Json) : canonItems xs = xs.map canon := by
  induction xs with
  | nil => rw [canonItems, List.map_nil]
  | cons x xs ih => rw [canonItems, ih, List.map_cons]

theorem canonFields_eq (fs : List (String × Json)) :
    canonFields fs = fs.map fun p => (p.1, canon p.2) := by
  induction fs with
  | nil => rw [canonFields, List.map_nil]
  | cons f fs ih => rw [canonFields, ih, List.map_cons]

theorem dumpsItems_eq (l : Layout) (xs : List Json) : dumpsItems l xs = xs.map (dumps l) := by
  induction xs with
  | nil => rw [dumpsItems, List.map_nil]
  | cons x xs ih => rw [dumpsItems, ih, List.map_cons]

theorem dumpsFields_eq (l : Layout) (fs : List (String × Json)) :
    dumpsFields l fs = fs.map fun p => (p.1, dumps l p.2) := by
  induction fs with
  | nil => rw [dumpsFields, List.map_nil]
  | cons f fs ih => rw [dumpsFields, ih, List.map_cons]

/-- Insertion by key does not change the value of a key, when the key is new. -/
theorem field?_insertKey {f : String × Json} {fs : List (String × Json)}
    (h : f.1 ∉ fs.map Prod.fst) (k : String) : field? k (insertKey f fs) = field? k (f :: fs) := by
  induction fs with
  | nil => rfl
  | cons g rest ih =>
      obtain ⟨hg, hrest⟩ := not_or.1 (fun hor => h (List.mem_cons.2 hor))
      rw [insertKey]
      split
      · rfl
      · rw [field?, ih hrest, field?, field?, field?]
        by_cases hk : g.1 = k
        · rw [if_pos hk, if_neg (fun hf => hg (hf.trans hk.symm)), if_pos hk]
        · rw [if_neg hk, if_neg hk]

theorem field?_sortKeys {fs : List (String × Json)} (h : (fs.map Prod.fst).Nodup) (k : String) :
    field? k (sortKeys fs) = field? k fs := by
  induction fs with
  | nil => rfl
  | cons f rest ih =>
      rw [List.map_cons, List.nodup_cons] at h
      have hnew : f.1 ∉ (sortKeys rest).map Prod.fst := by
        intro hmem
        obtain ⟨p, hp, hpf⟩ := List.mem_map.1 hmem
        exact h.1 (hpf ▸ List.mem_map_of_mem (mem_sortKeys.1 hp))
      rw [sortKeys, field?_insertKey hnew, field?, field?, ih h.2]

theorem field?_canonFields (fs : List (String × Json)) (k : String) :
    field? k (canonFields fs) = (field? k fs).map canon := by
  induction fs with
  | nil => rfl
  | cons f rest ih =>
      rw [canonFields, field?, field?, ih]
      split
      · rfl
      · rfl

/-- Objects that are one document agree under every key. -/
theorem field?_of_canon {fs gs : List (String × Json)} (hf : (fs.map Prod.fst).Nodup)
    (hg : (gs.map Prod.fst).Nodup) (h : canon (obj fs) = canon (obj gs)) (k : String) :
    (field? k fs).map canon = (field? k gs).map canon := by
  have hkeys : ∀ fs : List (String × Json), (canonFields fs).map Prod.fst = fs.map Prod.fst := by
    intro fs
    rw [canonFields_eq, List.map_map]
    rfl
  rw [canon, canon, obj.injEq] at h
  rw [← field?_canonFields, ← field?_canonFields, ← field?_sortKeys (by rwa [hkeys]), h,
    field?_sortKeys (by rwa [hkeys])]

/-- Induction over documents, with the hypothesis for every item and every field. -/
theorem induct {P : Json → Prop} (null : P null) (bool : ∀ b, P (bool b)) (int : ∀ n, P (int n))
    (float : ∀ q, P (float q)) (str : ∀ s, P (str s))
    (arr : ∀ xs, (∀ x ∈ xs, P x) → P (arr xs))
    (obj : ∀ fs : List (String × Json), (∀ p ∈ fs, P p.2) → P (obj fs)) (j : Json) : P j := by
  refine @Json.rec P (fun xs => ∀ x ∈ xs, P x) (fun fs => ∀ p ∈ fs, P p.2) (fun p => P p.2)
    null bool int float str (fun xs ih => arr xs ih) (fun fs ih => obj fs ih) ?_ ?_ ?_ ?_ ?_ j
  · intro x hx
    cases hx
  · intro x xs hx hxs y hy
    rcases List.mem_cons.1 hy with rfl | hy
    · exact hx
    · exact hxs y hy
  · intro p hp
    cases hp
  · intro p fs hp hfs q hq
    rcases List.mem_cons.1 hq with rfl | hq
    · exact hp
    · exact hfs q hq
  · intro k x hx
    exact hx

/-! ## Splitting a text -/

/-- What may stand after a document: an item separator or a closing bracket. -/
def isDelimiter (c : Char) : Bool := c == ',' || c == ']' || c == '\x7d'

/-- A text that is empty or starts with a delimiter. -/
def Ends (x : List Char) : Prop := ∀ c ∈ x.head?, isDelimiter c = true

theorem ends_nil : Ends [] := by
  intro c hc
  cases hc

theorem ends_cons {c : Char} (hc : isDelimiter c = true) (x : List Char) : Ends (c :: x) := by
  intro d hd
  obtain rfl := Option.some.inj hd
  exact hc

/-- A text without delimiters ends where a delimiter stands. -/
theorem token_unique {s t x y : List Char} (hs : ∀ c ∈ s, isDelimiter c = false)
    (ht : ∀ c ∈ t, isDelimiter c = false) (hx : Ends x) (hy : Ends y) (h : s ++ x = t ++ y) :
    s = t ∧ x = y := by
  have hstop : ∀ {u v a w : List Char}, (∀ c ∈ v, isDelimiter c = false) → Ends u → v = w ++ a →
      ∀ {z}, u = a ++ z → a = [] := by
    intro u v a w hv hu hva z huz
    cases a with
    | nil => rfl
    | cons c a =>
        have hc := hv c (by rw [hva]; simp)
        rw [hu c (by rw [huz]; rfl)] at hc
        cases hc
  rcases List.append_eq_append_iff.1 h with ⟨a, hta, hxa⟩ | ⟨a, hsa, hya⟩
  · have ha := hstop ht hx hta hxa
    subst ha
    rw [List.append_nil] at hta
    exact ⟨hta.symm, hxa⟩
  · have ha := hstop hs hy hsa hya
    subst ha
    rw [List.append_nil] at hsa
    exact ⟨hsa, hya.symm⟩

/-- The texts after the first one, each behind a comma. -/
def tailText : List (List Char) → List Char
  | [] => []
  | t :: ts => ',' :: [','].intercalate (t :: ts)

theorem intercalate_cons (t : List Char) (ts : List (List Char)) :
    [','].intercalate (t :: ts) = t ++ tailText ts := by
  cases ts with
  | nil => rw [List.intercalate_singleton, tailText, List.append_nil]
  | cons u us => rw [List.intercalate_cons_cons, tailText, List.append_assoc, List.singleton_append]

/-- Texts that can be split off are split off a joined text one after the other. -/
theorem join_unique {γ : Type u} {δ : Type v} (f : γ → List Char) (g : γ → δ) {close : Char}
    (hclose : isDelimiter close = true) (hcomma : close ≠ ',')
    (hlead : ∀ b, ∃ c t, f b = c :: t ∧ isDelimiter c = false) (xs : List γ)
    (hx : ∀ a ∈ xs, ∀ b x y, Ends x → Ends y → f a ++ x = f b ++ y → g a = g b ∧ x = y) :
    ∀ (ys : List γ) (x y : List Char), [','].intercalate (xs.map f) ++ close :: x =
      [','].intercalate (ys.map f) ++ close :: y → xs.map g = ys.map g ∧ x = y := by
  have hnot : ∀ b (z t : List Char) (w : List Char), close :: z ≠ f b ++ t ++ w := by
    intro b z t w h
    obtain ⟨c, r, hc, hd⟩ := hlead b
    rw [hc] at h
    rw [← (List.cons.inj h).1, hclose] at hd
    cases hd
  induction xs with
  | nil =>
      intro ys x y h
      cases ys with
      | nil => exact ⟨rfl, (List.cons.inj h).2⟩
      | cons b ys =>
          rw [List.map_cons, intercalate_cons] at h
          exact absurd h (hnot b _ _ _)
  | cons a xs ih =>
      intro ys x y h
      cases ys with
      | nil =>
          rw [List.map_cons, intercalate_cons] at h
          exact absurd h.symm (hnot a _ _ _)
      | cons b ys =>
          rw [List.map_cons, List.map_cons, intercalate_cons, intercalate_cons, List.append_assoc,
            List.append_assoc] at h
          have hends : ∀ (ts : List (List Char)) z, Ends (tailText ts ++ close :: z) := by
            intro ts z
            cases ts with
            | nil => exact ends_cons hclose z
            | cons t ts => exact ends_cons rfl _
          obtain ⟨hab, hrest⟩ := hx a List.mem_cons_self b _ _ (hends _ _) (hends _ _) h
          -- either both lists end here or both go on behind a comma
          cases xs with
          | nil =>
              cases ys with
              | nil => exact ⟨List.cons_eq_cons.2 ⟨hab, rfl⟩, (List.cons.inj hrest).2⟩
              | cons b' ys => exact absurd (List.cons.inj hrest).1 hcomma
          | cons a' xs =>
              cases ys with
              | nil => exact absurd (List.cons.inj hrest).1.symm hcomma
              | cons b' ys =>
                  obtain ⟨hmap, hxy⟩ := ih (fun c hc => hx c (List.mem_cons_of_mem _ hc)) (b' :: ys)
                    x y (List.cons.inj hrest).2
                  exact ⟨List.cons_eq_cons.2 ⟨hab, hmap⟩, hxy⟩

/-! ## Documents -/

/-- A character of a number. -/
def isNumeral (c : Char) : Bool := c.isDigit || c == '-' || c == '+' || c == '.' || c == 'e'

/-- The documented properties of the text of a float that the encoding relies on: it reads back as
the same number, it is a numeral, and it is no text of an integer. -/
structure FloatText (r : ℚ → String) : Prop where
  injective : Function.Injective r
  nonempty : ∀ q, (r q).toList ≠ []
  numeral : ∀ q, ∀ c ∈ (r q).toList, isNumeral c = true
  not_int : ∀ q (n : ℤ), r q ≠ toString n

/-- The characters of the compact text of a document. -/
def text (r : ℚ → String) (j : Json) : List Char := (dumps (compact r) j).toList

theorem text_arr (r : ℚ → String) (xs : List Json) :
    text r (arr xs) = '[' :: ([','].intercalate (xs.map (text r)) ++ [']']) := by
  simp only [text, dumps, compact, String.toList_append, String.toList_intercalate, dumpsItems_eq,
    List.map_map]
  rfl

/-- The characters of a field. -/
def fieldText (r : ℚ → String) (p : String × Json) : List Char :=
  (quote p.1).toList ++ ':' :: text r p.2

theorem text_obj (r : ℚ → String) (fs : List (String × Json)) :
    text r (obj fs) =
      '\x7b' :: ([','].intercalate ((sortKeys fs).map (fieldText r)) ++ ['\x7d']) := by
  simp only [text, dumps, compact, String.toList_append, String.toList_intercalate, dumpsFields_eq,
    sortFields_eq, sortKeys_map, List.map_map]
  have hfield : (String.toList ∘ (fun f : String × String => quote f.1 ++ ":" ++ f.2)) ∘
      (fun p : String × Json => (p.1, dumps (compact r) p.2)) = fieldText r := by
    funext p
    simp only [Function.comp_apply, fieldText, text, String.toList_append, List.append_assoc]
    rfl
  rw [← hfield]
  rfl

/-- Scalars, strings, arrays and objects. -/
def kind : Json → ℕ
  | str _ => 1
  | arr _ => 2
  | obj _ => 3
  | _ => 0

/-- The kind of the documents whose text starts with a character. -/
def leadKind (c : Char) : ℕ :=
  if c = '"' then 1 else if c = '[' then 2 else if c = '\x7b' then 3 else 0

theorem isDelimiter_of_isNumeral {c : Char} (h : isNumeral c = true) :
    isDelimiter c = false ∧ leadKind c = 0 := by
  have hne : c ≠ ',' ∧ c ≠ ']' ∧ c ≠ '\x7d' ∧ c ≠ '"' ∧ c ≠ '[' ∧ c ≠ '\x7b' := by
    refine ⟨?_, ?_, ?_, ?_, ?_, ?_⟩ <;> · rintro rfl; exact absurd h (by decide)
  obtain ⟨h₁, h₂, h₃, h₄, h₅, h₆⟩ := hne
  simp [isDelimiter, leadKind, h₁, h₂, h₃, h₄, h₅, h₆]

theorem isNumeral_int (n : ℤ) : (toString n).toList ≠ [] ∧
    ∀ c ∈ (toString n).toList, isNumeral c = true := by
  have hnat : ∀ m : ℕ, ∀ c ∈ m.repr.toList, isNumeral c = true := by
    intro m c hc
    rw [Nat.toList_repr] at hc
    simp [isNumeral, Nat.isDigit_of_mem_toDigits (by norm_num) (by norm_num) hc]
  rw [Int.toString_eq_repr, Int.repr_eq_if]
  split
  · refine ⟨?_, hnat _⟩
    rw [Nat.toList_repr]
    exact Nat.toDigits_ne_nil
  · rw [String.toList_append]
    refine ⟨by simp, ?_⟩
    intro c hc
    rcases List.mem_append.1 hc with hc | hc
    · obtain rfl : c = '-' := by simpa using hc
      rfl
    · exact hnat _ c hc

/-- A text of floats: numerator and denominator around the exponent mark. -/
def ratText (q : ℚ) : String := toString q.num ++ "e" ++ toString q.den

theorem not_mem_exponent_int (n : ℤ) : 'e' ∉ (toString n).toList := by
  intro h
  rw [Int.toString_eq_repr, Int.repr_eq_if] at h
  have hnat : ∀ m : ℕ, 'e' ∉ m.repr.toList := by
    intro m hm
    rw [Nat.toList_repr] at hm
    exact absurd (Nat.isDigit_of_mem_toDigits (by norm_num) (by norm_num) hm) (by decide)
  split at h
  · exact hnat _ h
  · rw [String.toList_append] at h
    rcases List.mem_append.1 h with h | h
    · exact absurd h (by decide)
    · exact hnat _ h

theorem toList_ratText (q : ℚ) :
    (ratText q).toList = (toString q.num).toList ++ 'e' :: (toString (q.den : ℤ)).toList := by
  rw [ratText, String.toList_append, String.toList_append, List.append_assoc]
  rfl

/-- The properties can be met. -/
theorem floatText_ratText : FloatText ratText where
  injective := by
    intro p q h
    have htext := congrArg String.toList h
    rw [toList_ratText, toList_ratText] at htext
    have hsplit : ∀ (s t x y : List Char), 'e' ∉ s → 'e' ∉ t → s ++ 'e' :: x = t ++ 'e' :: y →
        s = t ∧ x = y := by
      intro s
      induction s with
      | nil =>
          intro t x y _ ht h
          cases t with
          | nil => exact ⟨rfl, (List.cons.inj h).2⟩
          | cons c t => exact absurd ((List.cons.inj h).1 ▸ List.mem_cons_self) ht
      | cons c s ih =>
          intro t x y hs ht h
          cases t with
          | nil => exact absurd ((List.cons.inj h).1 ▸ List.mem_cons_self) hs
          | cons d t =>
              obtain ⟨rfl, hrest⟩ := List.cons.inj h
              obtain ⟨rfl, hxy⟩ := ih t x y (fun hm => hs (List.mem_cons_of_mem _ hm))
                (fun hm => ht (List.mem_cons_of_mem _ hm)) hrest
              exact ⟨rfl, hxy⟩
    obtain ⟨hnum, hden⟩ := hsplit _ _ _ _ (not_mem_exponent_int _) (not_mem_exponent_int _) htext
    refine Rat.ext (Int.repr_injective (String.toList_inj.1 hnum)) ?_
    exact Int.natCast_inj.1 (Int.repr_injective (String.toList_inj.1 hden))
  nonempty q := by
    rw [toList_ratText]
    simp
  numeral q c hc := by
    rw [toList_ratText] at hc
    rcases List.mem_append.1 hc with hc | hc
    · exact (isNumeral_int _).2 c hc
    · rcases List.mem_cons.1 hc with rfl | hc
      · rfl
      · exact (isNumeral_int _).2 c hc
  not_int q n h := by
    refine not_mem_exponent_int n ?_
    rw [← h, toList_ratText]
    simp

section Reading

variable {r : ℚ → String}

/-- The text of a scalar is a token. -/
theorem scalar_token (hr : FloatText r) {j : Json} (hj : kind j = 0) :
    text r j ≠ [] ∧ ∀ c ∈ text r j, isDelimiter c = false ∧ leadKind c = 0 := by
  have hword : ∀ (w : String) (cs : List Char), w.toList = cs → cs ≠ [] →
      cs.all (fun c => !isDelimiter c && leadKind c == 0) = true →
      w.toList ≠ [] ∧ ∀ c ∈ w.toList, isDelimiter c = false ∧ leadKind c = 0 := by
    rintro w cs rfl hne hall
    refine ⟨hne, fun c hc => ?_⟩
    have h := List.all_eq_true.1 hall c hc
    rwa [Bool.and_eq_true, Bool.not_eq_true', beq_iff_eq] at h
  cases j with
  | null => exact hword "null" ['n', 'u', 'l', 'l'] rfl (by simp) rfl
  | bool b =>
      cases b with
      | false => exact hword "false" ['f', 'a', 'l', 's', 'e'] rfl (by simp) rfl
      | true => exact hword "true" ['t', 'r', 'u', 'e'] rfl (by simp) rfl
  | int n =>
      obtain ⟨hne, hnum⟩ := isNumeral_int n
      exact ⟨hne, fun c hc => isDelimiter_of_isNumeral (hnum c hc)⟩
  | float q => exact ⟨hr.nonempty q, fun c hc => isDelimiter_of_isNumeral (hr.numeral q c hc)⟩
  | str s => cases hj
  | arr xs => cases hj
  | obj fs => cases hj

/-- The first character of a text tells the kind of the document, and is no delimiter. -/
theorem text_lead (hr : FloatText r) (j : Json) :
    ∃ c t, text r j = c :: t ∧ leadKind c = kind j ∧ isDelimiter c = false := by
  by_cases hj : kind j = 0
  · obtain ⟨hne, hnum⟩ := scalar_token hr hj
    obtain ⟨c, t, ht⟩ := List.exists_cons_of_ne_nil hne
    have hc := hnum c (by rw [ht]; exact List.mem_cons_self)
    exact ⟨c, t, ht, by rw [hc.2, hj], hc.1⟩
  · cases j with
    | str s => exact ⟨'"', _, toList_quote s, rfl, rfl⟩
    | arr xs => exact ⟨'[', _, text_arr r xs, rfl, rfl⟩
    | obj fs => exact ⟨'\x7b', _, text_obj r fs, rfl, rfl⟩
    | null => exact absurd rfl hj
    | bool b => exact absurd rfl hj
    | int n => exact absurd rfl hj
    | float q => exact absurd rfl hj

/-- The word of a scalar that is no number. -/
def word : Json → Option String
  | null => some "null"
  | bool false => some "false"
  | bool true => some "true"
  | _ => none

/-- A scalar is one of the three words or a number. -/
theorem scalar_cases (hr : FloatText r) {j : Json} (hj : kind j = 0) :
    (∃ w ∈ ["null", "false", "true"], word j = some w ∧ dumps (compact r) j = w) ∨
      (word j = none ∧ ∀ c ∈ text r j, isNumeral c = true) := by
  cases j with
  | null => exact .inl ⟨"null", by simp, rfl, rfl⟩
  | bool b =>
      cases b with
      | false => exact .inl ⟨"false", by simp, rfl, rfl⟩
      | true => exact .inl ⟨"true", by simp, rfl, rfl⟩
  | int n => exact .inr ⟨rfl, (isNumeral_int n).2⟩
  | float q => exact .inr ⟨rfl, hr.numeral q⟩
  | str s => cases hj
  | arr xs => cases hj
  | obj fs => cases hj

theorem eq_of_word {a b : Json} {w : String} (ha : word a = some w) (hb : word b = some w) :
    a = b := by
  have hshape : ∀ {j : Json}, word j = some w →
      j = null ∧ w = "null" ∨ j = bool false ∧ w = "false" ∨ j = bool true ∧ w = "true" := by
    intro j hj
    cases j with
    | null => exact .inl ⟨rfl, (Option.some.inj hj).symm⟩
    | bool b =>
        cases b with
        | false => exact .inr (.inl ⟨rfl, (Option.some.inj hj).symm⟩)
        | true => exact .inr (.inr ⟨rfl, (Option.some.inj hj).symm⟩)
    | int n => cases hj
    | float q => cases hj
    | str s => cases hj
    | arr xs => cases hj
    | obj fs => cases hj
  rcases hshape ha with ⟨rfl, rfl⟩ | ⟨rfl, rfl⟩ | ⟨rfl, rfl⟩ <;>
    rcases hshape hb with ⟨rfl, h⟩ | ⟨rfl, h⟩ | ⟨rfl, h⟩ <;>
    first | rfl | exact absurd h (by decide)

/-- Scalars with one text are one scalar. -/
theorem scalar_injective (hr : FloatText r) {a b : Json} (ha : kind a = 0) (hb : kind b = 0)
    (h : text r a = text r b) : a = b := by
  have hmixed : ∀ {w : String} {s : List Char}, w ∈ ["null", "false", "true"] →
      (∀ c ∈ s, isNumeral c = true) → w.toList ≠ s := by
    rintro w s hw hs rfl
    have hall : w.toList.all isNumeral = true := List.all_eq_true.2 hs
    simp only [List.mem_cons, List.not_mem_nil, or_false] at hw
    rcases hw with rfl | rfl | rfl <;> exact absurd hall (by decide)
  rcases scalar_cases hr ha with ⟨w, hw, hwa, hta⟩ | ⟨hna, hnuma⟩
  · rcases scalar_cases hr hb with ⟨w', -, hwb, htb⟩ | ⟨-, hnumb⟩
    · have hww : w = w' := by
        rw [← hta, ← htb]
        exact String.toList_inj.1 h
      exact eq_of_word hwa (hww ▸ hwb)
    · refine absurd ?_ (hmixed hw hnumb)
      rw [← h, text, hta]
  · rcases scalar_cases hr hb with ⟨w', hw', -, htb⟩ | ⟨hnb, -⟩
    · refine absurd ?_ (hmixed hw' hnuma)
      rw [h, text, htb]
    · -- two numbers
      have h' : dumps (compact r) a = dumps (compact r) b := String.toList_inj.1 h
      cases a <;> first | (cases ha; done) | (cases hna; done) | skip
      case bool b => cases b <;> cases hna
      case int n =>
        cases b <;> first | (cases hb; done) | (cases hnb; done) | skip
        case bool b => cases b <;> cases hnb
        case int m => exact congrArg int (Int.repr_injective h')
        case float q => exact absurd h'.symm (hr.not_int q n)
      case float p =>
        cases b <;> first | (cases hb; done) | (cases hnb; done) | skip
        case bool b => cases b <;> cases hnb
        case int m => exact absurd h' (hr.not_int p m)
        case float q => exact congrArg float (hr.injective h')

theorem fieldText_lead (p : String × Json) :
    ∃ c t, fieldText r p = c :: t ∧ isDelimiter c = false := by
  rw [fieldText, toList_quote]
  exact ⟨'"', _, rfl, rfl⟩

/-- The documents a text can be split off for. -/
def Splits (r : ℚ → String) (a : Json) : Prop := ∀ (b : Json) (x y : List Char), Ends x → Ends y →
  text r a ++ x = text r b ++ y → canon a = canon b ∧ x = y

/-- An object ends at its own bracket, whatever follows it. -/
theorem obj_splits {fs : List (String × Json)} (hfs : ∀ p ∈ fs, Splits r p.2)
    (gs : List (String × Json)) {x y : List Char} (h : text r (obj fs) ++ x = text r (obj gs) ++ y) :
    canon (obj fs) = canon (obj gs) ∧ x = y := by
  rw [text_obj, text_obj, List.cons_append, List.cons_append, List.append_assoc,
    List.append_assoc] at h
  -- a field is a key, a colon and a document
  have hfield : ∀ p ∈ sortKeys fs, ∀ (q : String × Json) (x y : List Char), Ends x → Ends y →
      fieldText r p ++ x = fieldText r q ++ y →
        (p.1, canon p.2) = (q.1, canon q.2) ∧ x = y := by
    intro p hp q x y hx hy h
    rw [fieldText, fieldText, List.append_assoc, List.append_assoc] at h
    obtain ⟨hkey, hvalue⟩ := quote_unique h
    obtain ⟨hcanon, hxy⟩ := hfs p (mem_sortKeys.1 hp) q.2 x y hx hy (List.cons.inj hvalue).2
    exact ⟨by rw [hkey, hcanon], hxy⟩
  obtain ⟨hmap, hxy⟩ := join_unique (fieldText r) (fun p => (p.1, canon p.2)) rfl (by decide)
    fieldText_lead (sortKeys fs) hfield (sortKeys gs) x y (List.cons.inj h).2
  refine ⟨?_, hxy⟩
  rw [canon, canon, canonFields_eq, canonFields_eq, sortKeys_map, sortKeys_map, hmap]

/-- **A document can be split off the front of a text.** -/
theorem read_unique (hr : FloatText r) (a : Json) : Splits r a := by
  have hkind : ∀ {a b : Json} {x y : List Char}, text r a ++ x = text r b ++ y →
      kind a = kind b := by
    intro a b x y h
    obtain ⟨c, s, hs, hc, -⟩ := text_lead hr a
    obtain ⟨d, t, ht, hd, -⟩ := text_lead hr b
    rw [hs, ht] at h
    rw [← hc, ← hd, (List.cons.inj h).1]
  have hscalar : ∀ {a : Json}, kind a = 0 → Splits r a := by
    intro a ha b x y hx hy h
    have hb : kind b = 0 := (hkind h).symm.trans ha
    obtain ⟨htext, hxy⟩ := token_unique (fun c hc => ((scalar_token hr ha).2 c hc).1)
      (fun c hc => ((scalar_token hr hb).2 c hc).1) hx hy h
    exact ⟨by rw [scalar_injective hr ha hb htext], hxy⟩
  induction a using induct with
  | null => exact hscalar rfl
  | bool b => exact hscalar rfl
  | int n => exact hscalar rfl
  | float q => exact hscalar rfl
  | str s =>
      intro b x y _ _ h
      have hb := hkind h
      cases b <;> first | (cases hb; done) | skip
      case str t =>
        obtain ⟨rfl, hxy⟩ := quote_unique (s := s) (t := t) h
        exact ⟨rfl, hxy⟩
  | arr xs ih =>
      intro b x y _ _ h
      have hb := hkind h
      cases b <;> first | (cases hb; done) | skip
      case arr ys =>
        rw [text_arr, text_arr, List.cons_append, List.cons_append, List.append_assoc,
          List.append_assoc] at h
        have hlead : ∀ b, ∃ c t, text r b = c :: t ∧ isDelimiter c = false := by
          intro b
          obtain ⟨c, t, htext, -, hc⟩ := text_lead hr b
          exact ⟨c, t, htext, hc⟩
        obtain ⟨hmap, hxy⟩ := join_unique (text r) canon rfl (by decide) hlead xs ih ys x y
          (List.cons.inj h).2
        refine ⟨?_, hxy⟩
        rw [canon, canon, canonItems_eq, canonItems_eq, hmap]
  | obj fs ih =>
      intro b x y _ _ h
      have hb := hkind h
      cases b <;> first | (cases hb; done) | skip
      case obj gs => exact obj_splits ih gs h

/-- An object and the text behind it are determined by the whole. -/
theorem obj_append_unique (hr : FloatText r) {fs gs : List (String × Json)} {x y : String}
    (h : dumps (compact r) (obj fs) ++ x = dumps (compact r) (obj gs) ++ y) :
    canon (obj fs) = canon (obj gs) ∧ x = y := by
  have h' := congrArg String.toList h
  rw [String.toList_append, String.toList_append] at h'
  obtain ⟨hcanon, hxy⟩ := obj_splits (fun p _ => read_unique hr p.2) gs h'
  exact ⟨hcanon, String.toList_inj.1 hxy⟩

/-- **Documents with one text are one document.** -/
theorem dumps_injective (hr : FloatText r) {a b : Json}
    (h : dumps (compact r) a = dumps (compact r) b) : canon a = canon b := by
  have htext : text r a ++ [] = text r b ++ [] := by
    rw [List.append_nil, List.append_nil, text, text, h]
  exact (read_unique hr a b [] [] ends_nil ends_nil htext).1

end Reading

/-- One document has one text. -/
theorem dumps_of_canon (l : Layout) (a : Json) : ∀ b, canon a = canon b → dumps l a = dumps l b := by
  have hlist : ∀ {γ δ ε : Type} (f : γ → δ) (g : γ → ε) (xs : List γ),
      (∀ x ∈ xs, ∀ y, g x = g y → f x = f y) →
        ∀ ys : List γ, xs.map g = ys.map g → xs.map f = ys.map f := by
    intro γ δ ε f g xs
    induction xs with
    | nil =>
        intro _ ys h
        rw [List.map_nil, eq_comm, List.map_eq_nil_iff] at h
        rw [h]
    | cons x xs ih =>
        intro hx ys h
        cases ys with
        | nil => cases h
        | cons y ys =>
            rw [List.map_cons, List.map_cons, List.cons_eq_cons] at h ⊢
            exact ⟨hx x List.mem_cons_self y h.1,
              ih (fun z hz => hx z (List.mem_cons_of_mem _ hz)) ys h.2⟩
  induction a using induct with
  | null => intro b h; cases b <;> first | rfl | (simp [canon] at h)
  | bool b => intro c h; cases c <;> simp_all [canon]
  | int n => intro b h; cases b <;> simp_all [canon]
  | float q => intro b h; cases b <;> simp_all [canon]
  | str s => intro b h; cases b <;> simp_all [canon]
  | arr xs ih =>
      intro b h
      cases b <;> simp only [canon, arr.injEq, reduceCtorEq] at h
      case arr ys =>
        rw [canonItems_eq, canonItems_eq] at h
        rw [dumps, dumps, dumpsItems_eq, dumpsItems_eq, hlist (dumps l) canon xs ih ys h]
  | obj fs ih =>
      intro b h
      cases b <;> simp only [canon, obj.injEq, reduceCtorEq] at h
      case obj gs =>
        rw [canonFields_eq, canonFields_eq, sortKeys_map, sortKeys_map] at h
        have hfields : (sortKeys fs).map (fun p => (p.1, dumps l p.2)) =
            (sortKeys gs).map fun p => (p.1, dumps l p.2) := by
          refine hlist _ (fun p : String × Json => (p.1, canon p.2)) _ ?_ _ h
          intro p hp q hpq
          obtain ⟨hkey, hvalue⟩ := Prod.mk.inj hpq
          rw [hkey, ih p (mem_sortKeys.1 hp) q.2 hvalue]
        rw [dumps, dumps, dumpsFields_eq, dumpsFields_eq, sortFields_eq, sortFields_eq, sortKeys_map,
          sortKeys_map, hfields]

end AgentPay.Library.Json
