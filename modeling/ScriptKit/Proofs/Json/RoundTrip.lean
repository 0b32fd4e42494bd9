import ScriptKit.Json.Read
import ScriptKit.Proofs.Text.Numeral
import ScriptKit.Proofs.Text.Bytes

/-!
# Written values are read back

Each part of a written value is read back in front of any text that may follow it: a character of a string up to the
next one, a numeral up to what ends it, a value up to a comma or a closing bracket. `Readable` counts how deep a value
goes the way the reader does, one for every array and object that is open.

A stray byte in a string is written as the replacement character, so what is read is the value `asShown`; a value of
which every text consists of characters is read back as it is.

**Theorem (`read_write`).** A value whose numbers are integers, and that goes no deeper than the reader, is read back as
it is shown.

**Theorem (`isPlain_write`).** Its written form consists of characters, none of them a control character.
-/

namespace ScriptKit

/-- A text with each stray byte replaced by the character that shows it. -/
def Text.asShown (t : Text) : Text := t.map fun g => .char g.shown

theorem Text.asShown_of_isChar {t : Text} (h : ∀ g ∈ t, g.isChar = true) : t.asShown = t := by
  refine (List.map_congr_left fun g hg => ?_).trans (List.map_id t)
  have hchar := h g hg
  cases g with
  | char c => rfl
  | stray b => cases hchar

namespace Json

/-! ## Strings -/

theorem readHex4_append {t rest : Text} {n : Nat} (h : readHex4 t = some (n, [])) :
    readHex4 (t ++ rest) = some (n, rest) := by
  match t with
  | a :: b :: c :: d :: tail =>
    simp only [readHex4, List.cons_append] at h ⊢
    split at h
    · obtain ⟨rfl, rfl⟩ := Prod.mk.inj (Option.some.inj h)
      rfl
    · cases h

theorem readEscape_unit {n : Nat} (rest : Text) (hn : n < 0xD800) (h : readHex4 (Text.ofHex 4 n) = some (n, [])) :
    readEscape (.char 'u' :: (Text.ofHex 4 n ++ rest)) = some (.char (Char.ofNat n), rest) := by
  have hlow : (decide (0xD800 ≤ n) && decide (n ≤ 0xDBFF)) = false := by simp; omega
  have hunit : unitChar n = Char.ofNat n := by
    unfold unitChar
    rw [if_neg (by simp; omega)]
  rw [readEscape, readUnit, readHex4_append h]
  simp only [hlow, hunit]
  rfl

/-- The characters that are written by their number. -/
def IsEscaped (n : Nat) : Prop := n < 0x20 ∨ n ∈ [0x26, 0x3C, 0x3E, 0x2028, 0x2029]

/-- What holds of the numbers that are written in base sixteen is decided one by one. -/
theorem IsEscaped.elim {P : Nat → Prop} {n : Nat} (h : IsEscaped n) (hlow : ∀ n < 0x20, P n)
    (hrest : ∀ n ∈ [0x26, 0x3C, 0x3E, 0x2028, 0x2029], P n) : P n :=
  Or.elim h (hlow n) (hrest n)

/-- A character is written as a letter that stands for it, as its number or as itself. -/
theorem escapeChar_cases (c : Char) :
    (∃ d, unescape? d = some c ∧ escapeChar c = [.char '\\', .char d]) ∨
    (IsEscaped c.toNat ∧ escapeChar c = "\\u" ++ Text.ofHex 4 c.toNat) ∨
    (0x20 ≤ c.toNat ∧ c ≠ '"' ∧ c ≠ '\\' ∧ escapeChar c = [.char c]) := by
  have hletter : ∀ (n : Nat) (d : Char), c.toNat = n → unescape? d = some (Char.ofNat n) →
      ∃ d', unescape? d' = some c ∧ [Glyph.char '\\', .char d] = [.char '\\', .char d'] := by
    intro n d hn hd
    exact ⟨d, by rw [hd, ← hn, Char.ofNat_toNat], rfl⟩
  unfold escapeChar
  split
  · next h => exact .inl (hletter _ 'b' h rfl)
  · next h => exact .inl (hletter _ 't' h rfl)
  · next h => exact .inl (hletter _ 'n' h rfl)
  · next h => exact .inl (hletter _ 'f' h rfl)
  · next h => exact .inl (hletter _ 'r' h rfl)
  · next h => exact .inl (hletter _ '"' h rfl)
  · next h => exact .inl (hletter _ '\\' h rfl)
  · next hquote hbackslash =>
    refine .inr ?_
    by_cases h : IsEscaped c.toNat
    · exact .inl ⟨h, if_pos (by simpa [IsEscaped, or_assoc] using h)⟩
    · refine .inr ⟨Nat.le_of_not_lt fun hlow => h (.inl hlow), ?_, ?_, ?_⟩
      · rintro rfl
        exact hquote rfl
      · rintro rfl
        exact hbackslash rfl
      · exact if_neg (by simpa [IsEscaped, or_assoc] using h)

theorem readHex4_ofHex {n : Nat} (h : IsEscaped n) : readHex4 (Text.ofHex 4 n) = some (n, []) :=
  h.elim (P := fun n => readHex4 (Text.ofHex 4 n) = some (n, [])) (by decide) (by decide)

theorem IsEscaped.lt {n : Nat} (h : IsEscaped n) : n < 0xD800 :=
  h.elim (P := fun n => n < 0xD800) (by decide) (by decide)

/-- A character is read back from how it is written inside a string. -/
theorem readStringFrom_escapeChar (read : Text) (k : Nat) (c : Char) (rest : Text) :
    readStringFrom read (k + 1) (escapeChar c ++ rest) = readStringFrom (.char c :: read) k rest := by
  rcases escapeChar_cases c with ⟨d, hd, heq⟩ | ⟨hnumber, heq⟩ | ⟨hle, hquote, hbackslash, heq⟩
  · have hescape : readEscape (.char d :: rest) = some (.char c, rest) := by
      rw [readEscape, hd]
      · rfl
      · rintro rfl
        cases hd
    rw [heq]
    simp only [List.cons_append, List.nil_append, readStringFrom, hescape]
  · have hescape := readEscape_unit rest hnumber.lt (readHex4_ofHex hnumber)
    rw [Char.ofNat_toNat] at hescape
    have hunit : escapeChar c ++ rest = .char '\\' :: .char 'u' :: (Text.ofHex 4 c.toNat ++ rest) := by
      rw [heq]
      rfl
    rw [hunit]
    simp only [readStringFrom, hescape]
  · rw [heq, List.singleton_append, readStringFrom]
    · exact if_neg (Nat.not_lt.2 hle)
    · exact hquote
    · exact hbackslash

theorem escapeChar_ne_nil (c : Char) : escapeChar c ≠ [] := by
  rcases escapeChar_cases c with ⟨d, -, heq⟩ | ⟨-, heq⟩ | ⟨-, -, -, heq⟩
  all_goals
    rw [heq]
    exact List.cons_ne_nil _ _

theorem readStringFrom_written (t rest : Text) : ∀ (read : Text) (k : Nat), t.length < k →
    readStringFrom read k (t.flatMap (fun g => escapeChar g.shown) ++ .char '"' :: rest) =
      some (read.reverse ++ t.asShown, rest) := by
  induction t with
  | nil =>
    intro read k hk
    obtain ⟨k, rfl⟩ := Nat.exists_eq_succ_of_ne_zero (Nat.ne_zero_of_lt hk)
    simp [readStringFrom, Text.asShown]
  | cons g t ih =>
    intro read k hk
    obtain ⟨k, rfl⟩ := Nat.exists_eq_succ_of_ne_zero (Nat.ne_zero_of_lt hk)
    rw [List.flatMap_cons, List.append_assoc, readStringFrom_escapeChar, ih _ k (Nat.lt_of_succ_lt_succ hk)]
    simp [Text.asShown]

/-- A string is read back as it is shown, in front of any text. -/
theorem readString_written (t rest : Text) :
    readString (t.flatMap (fun g => escapeChar g.shown) ++ .char '"' :: rest) = some (t.asShown, rest) := by
  refine readStringFrom_written t rest [] _ ?_
  have hlen : t.length ≤ (t.flatMap fun g => escapeChar g.shown).length := by
    induction t with
    | nil => exact Nat.le_refl 0
    | cons g t ih =>
      have hpos := List.length_pos_iff.2 (escapeChar_ne_nil g.shown)
      rw [List.flatMap_cons, List.length_append, List.length_cons]
      omega
  rw [List.length_append, List.length_cons]
  omega

/-! ## Numbers -/

/-- What may stand behind a value inside another one. -/
inductive Follows : Text → Prop
  | nil : Follows []
  | comma (t : Text) : Follows (.char ',' :: t)
  | bracket (t : Text) : Follows (.char ']' :: t)
  | brace (t : Text) : Follows (.char '\x7d' :: t)

theorem isDigit_eq (g : Glyph) : isDigit g = g.isNumeralPart := by
  cases g <;> rfl

theorem Follows.not_isDigit {rest : Text} (h : Follows rest) :
    rest.takeWhile isDigit = [] ∧ rest.dropWhile isDigit = rest := by
  cases h <;> exact ⟨rfl, rfl⟩

theorem takeDigits_append {ds rest : Text} (hds : ∀ g ∈ ds, isDigit g = true) (hne : ds ≠ []) (h : Follows rest) :
    takeDigits (ds ++ rest) = some (ds, rest) := by
  have htake : (ds ++ rest).takeWhile isDigit = ds := by
    rw [List.takeWhile_append_of_pos hds, h.not_isDigit.1, List.append_nil]
  have hdrop : (ds ++ rest).dropWhile isDigit = rest := by
    rw [List.dropWhile_append_of_pos hds, h.not_isDigit.2]
  unfold takeDigits
  rw [htake, hdrop]
  cases ds with
  | nil => exact absurd rfl hne
  | cons d ds => rfl

/-- The numeral of a positive number does not begin with a zero. -/
theorem head_ofNat_ne_zero {n : Nat} (hn : 0 < n) (t : Text) : Text.ofNat n ≠ .char '0' :: t := by
  induction n using Nat.strongRecOn generalizing t with
  | ind n ih =>
    by_cases h : n < 10
    · rw [Text.ofNat_of_lt h]
      intro heq
      have hall : ∀ d : Fin 10, d.val.digitChar = '0' → d.val = 0 := by decide
      have hzero := hall ⟨n, h⟩ (Glyph.char.inj (List.cons.inj heq).1)
      exact Nat.ne_of_gt hn hzero
    · rw [Text.ofNat_of_le (by omega)]
      intro heq
      rcases List.append_eq_cons_iff.1 heq with ⟨hnil, -⟩ | ⟨as, has, -⟩
      · exact Text.ofNat_ne_nil _ hnil
      · exact ih (n / 10) (by omega) (by omega) as has

theorem takeUnsigned_ofNat (n : Nat) {rest : Text} (h : Follows rest) :
    takeUnsigned (Text.ofNat n ++ rest) = some (Text.ofNat n, rest) := by
  have hwhole : takeWhole (Text.ofNat n ++ rest) = some (Text.ofNat n, rest) := by
    by_cases hn : n = 0
    · subst hn
      rfl
    · have hdigits : ∀ g ∈ Text.ofNat n, isDigit g = true :=
        fun g hg => (isDigit_eq g).trans (Text.isNumeralPart_of_mem_ofNat n g hg)
      have htake := takeDigits_append hdigits (Text.ofNat_ne_nil n) h
      cases hds : Text.ofNat n with
      | nil => exact absurd hds (Text.ofNat_ne_nil n)
      | cons g ds =>
        rw [hds] at htake
        rw [List.cons_append] at htake ⊢
        rw [takeWhole]
        · exact htake
        · intro t heq
          rw [(List.cons.inj heq).1] at hds
          exact head_ofNat_ne_zero (Nat.pos_of_ne_zero hn) ds hds
  have hfraction : takeFraction rest = some ([], rest) := by cases h <;> rfl
  have hexponent : takeExponent rest = some ([], rest) := by cases h <;> rfl
  simp [takeUnsigned, hwhole, hfraction, hexponent]

/-- The numeral of an integer is taken as one number. -/
theorem takeNumber_ofInt (n : Int) {rest : Text} (h : Follows rest) :
    takeNumber (Text.ofInt n ++ rest) = some (Text.ofInt n, rest) := by
  cases n with
  | negSucc n => simp [Text.ofInt, takeNumber, takeUnsigned_ofNat (n + 1) h]
  | ofNat n =>
    have htake := takeUnsigned_ofNat n h
    rw [Text.ofInt]
    cases hds : Text.ofNat n with
    | nil => exact absurd hds (Text.ofNat_ne_nil n)
    | cons g ds =>
      rw [hds] at htake
      rw [List.cons_append] at htake ⊢
      rw [takeNumber]
      · exact htake
      · intro t heq
        rw [(List.cons.inj heq).1] at hds
        have hpart := Text.isNumeralPart_of_mem_ofNat n (.char '-') (by rw [hds]; exact List.mem_cons_self ..)
        cases hpart

/-! ## Values -/

mutual

/-- A value with every text in it as it is shown. -/
def asShown : Json → Json
  | .null => .null
  | .bool b => .bool b
  | .number numeral => .number numeral
  | .string t => .string t.asShown
  | .array items => .array (asShownItems items)
  | .object fields => .object (asShownFields fields)

/-- The items of an array as they are shown. -/
def asShownItems : List Json → List Json
  | [] => []
  | item :: items => item.asShown :: asShownItems items

/-- The fields of an object as they are shown. -/
def asShownFields : List (Text × Json) → List (Text × Json)
  | [] => []
  | (name, value) :: fields => (name.asShown, value.asShown) :: asShownFields fields

end

/-- Every number in a value is an integer, and at most `n` arrays and objects are open at a time. -/
inductive Readable : Nat → Json → Prop
  | null {n : Nat} : Readable n .null
  | bool {n : Nat} (b : Bool) : Readable n (.bool b)
  | int {n : Nat} (i : Int) : Readable n (.int i)
  | string {n : Nat} (t : Text) : Readable n (.string t)
  | array {n : Nat} {items : List Json} : (∀ item ∈ items, Readable n item) → Readable (n + 1) (.array items)
  | object {n : Nat} {fields : List (Text × Json)} : (∀ field ∈ fields, Readable n field.2) →
    Readable (n + 1) (.object fields)

theorem Readable.nat {n : Nat} (k : Nat) : Readable n (.nat k) := .int (.ofNat k)

theorem Readable.mono {n m : Nat} {j : Json} (h : Readable n j) (hle : n ≤ m) : Readable m j := by
  induction h generalizing m with
  | null => exact .null
  | bool b => exact .bool b
  | int i => exact .int i
  | string t => exact .string t
  | array _ ih =>
    obtain ⟨m, rfl⟩ := Nat.exists_eq_succ_of_ne_zero (Nat.ne_zero_of_lt hle)
    exact .array fun item hitem => ih item hitem (Nat.le_of_succ_le_succ hle)
  | object _ ih =>
    obtain ⟨m, rfl⟩ := Nat.exists_eq_succ_of_ne_zero (Nat.ne_zero_of_lt hle)
    exact .object fun field hfield => ih field hfield (Nat.le_of_succ_le_succ hle)

/-- Whether a glyph begins a value. -/
def opens (g : Glyph) : Bool :=
  g.isNumeralPart || [Glyph.char '-', .char '"', .char '[', .char '\x7b', .char 'n', .char 't', .char 'f'].contains g

theorem ofInt_eq_cons (n : Int) : ∃ g t, Text.ofInt n = g :: t ∧ (g = .char '-' ∨ g.isNumeralPart = true) := by
  cases n with
  | negSucc n => exact ⟨_, _, rfl, .inl rfl⟩
  | ofNat n =>
    obtain ⟨g, t, ht⟩ := List.exists_cons_of_ne_nil (Text.ofNat_ne_nil n)
    exact ⟨g, t, ht, .inr (Text.isNumeralPart_of_mem_ofNat n g (by rw [ht]; exact List.mem_cons_self ..))⟩

theorem opens_of_numeral {g : Glyph} (h : g = .char '-' ∨ g.isNumeralPart = true) : opens g = true := by
  rcases h with rfl | h
  · rfl
  · rw [opens, h, Bool.true_or]

theorem write_eq_cons {n : Nat} {j : Json} (h : Readable n j) : ∃ g t, j.write = g :: t ∧ opens g = true := by
  cases h with
  | null => exact ⟨_, _, rfl, rfl⟩
  | bool b => cases b <;> exact ⟨_, _, rfl, rfl⟩
  | string t => exact ⟨_, _, by rw [write, writeString]; rfl, rfl⟩
  | int n =>
    obtain ⟨g, t, ht, hg⟩ := ofInt_eq_cons n
    exact ⟨g, t, by rw [int, write, ht], opens_of_numeral hg⟩
  | @array _ items =>
    cases items with
    | nil => exact ⟨_, _, by rw [write]; rfl, rfl⟩
    | cons item items => exact ⟨_, _, by rw [write]; rfl, rfl⟩
  | @object _ fields =>
    match fields with
    | [] => exact ⟨_, _, by rw [write], rfl⟩
    | (name, value) :: fields => exact ⟨_, _, by rw [write]; rfl, rfl⟩

/-- No blank and no closing bracket begins a value. -/
theorem not_opens : ∀ g ∈ [Glyph.char ' ', .char '\t', .char '\n', .char '\r', .char ']', .char '\x7d'],
    opens g = false := by decide

theorem skipBlanks_of_opens {g : Glyph} (h : opens g = true) (t : Text) : skipBlanks (g :: t) = g :: t := by
  have hne : ∀ b ∈ [Glyph.char ' ', .char '\t', .char '\n', .char '\r', .char ']', .char '\x7d'], g ≠ b := by
    intro b hb heq
    rw [heq, not_opens b hb] at h
    cases h
  rw [skipBlanks, List.dropWhile_cons_of_neg]
  simp only [List.forall_mem_cons] at hne
  simp [hne]

/-- A mark between the parts of a value is no blank. -/
theorem skipBlanks_mark (c : Char) (h : c ∈ [',', ':', '"', '[', '\x7b']) (t : Text) :
    skipBlanks (.char c :: t) = .char c :: t := by
  simp only [List.mem_cons, List.not_mem_nil, or_false] at h
  rcases h with rfl | rfl | rfl | rfl | rfl <;> rfl

theorem readValue_number (n : Int) (k : Nat) {rest : Text} (h : Follows rest) :
    readValue k (Text.ofInt n ++ rest) = some (.int n, rest) := by
  have htake := takeNumber_ofInt n h
  obtain ⟨g, t, ht, hg⟩ := ofInt_eq_cons n
  rw [ht, List.cons_append] at htake
  rw [int, ht, List.cons_append]
  unfold readValue
  rw [skipBlanks_of_opens (opens_of_numeral hg)]
  have hhead : ∀ (c : Char) (t' : Text), c ≠ '-' → (Glyph.char c).isNumeralPart = false →
      g :: (t ++ rest) ≠ .char c :: t' := by
    intro c t' hminus hpart heq
    rcases hg with rfl | hg
    · exact hminus (Glyph.char.inj (List.cons.inj heq).1).symm
    · rw [(List.cons.inj heq).1, hpart] at hg
      cases hg
  split
  case h_1 heq => cases heq
  case h_10 => rw [htake]; rfl
  all_goals next heq => exact absurd heq (hhead _ _ (by decide) rfl)

/-! ## Arrays and objects -/

theorem asShownItems_eq_map (items : List Json) : asShownItems items = items.map asShown := by
  induction items with
  | nil => rfl
  | cons item items ih => rw [asShownItems, ih, List.map_cons]

theorem asShownFields_eq_map (fields : List (Text × Json)) :
    asShownFields fields = fields.map fun field => (field.1.asShown, field.2.asShown) := by
  induction fields with
  | nil => rfl
  | cons field fields ih => rw [asShownFields, ih, List.map_cons]

theorem follows_writeItems (items : List Json) (rest : Text) : Follows (writeItems items ++ .char ']' :: rest) := by
  cases items with
  | nil => exact .bracket rest
  | cons item items => rw [writeItems]; exact .comma _

theorem follows_writeFields (fields : List (Text × Json)) (rest : Text) :
    Follows (writeFields fields ++ .char '\x7d' :: rest) := by
  match fields with
  | [] => exact .brace rest
  | (name, value) :: fields => rw [writeFields]; exact .comma _

section Reads

/-- A reader of values gives back one value, whatever follows it. -/
def Reads (item : Text → Option (Json × Text)) (j : Json) : Prop :=
  ∀ rest, Follows rest → item (j.write ++ rest) = some (j.asShown, rest)

variable {item : Text → Option (Json × Text)}

theorem readItems_written (items : List Json) (h : ∀ j ∈ items, Reads item j) :
    ∀ (before : List Json) (k : Nat) (rest : Text), items.length < k →
      readItems item k before (writeItems items ++ .char ']' :: rest) =
        some (.array (before.reverse ++ items.map asShown), rest) := by
  induction items with
  | nil =>
    intro before k rest hk
    obtain ⟨k, rfl⟩ := Nat.exists_eq_succ_of_ne_zero (Nat.ne_zero_of_lt hk)
    simp [writeItems, readItems, skipBlanks]
  | cons j items ih =>
    intro before k rest hk
    obtain ⟨k, rfl⟩ := Nat.exists_eq_succ_of_ne_zero (Nat.ne_zero_of_lt hk)
    have hread := h j (List.mem_cons_self ..) _ (follows_writeItems items rest)
    have hitems := ih (fun j hj => h j (List.mem_cons_of_mem _ hj)) (j.asShown :: before) k rest
      (Nat.lt_of_succ_lt_succ hk)
    simp only [writeItems, List.append_assoc, List.cons_append, List.nil_append, readItems,
      skipBlanks_mark ',' (by decide), hread, hitems]
    simp

theorem readField_written (name : Text) {j : Json} (h : Reads item j) {rest : Text} (hrest : Follows rest) :
    readField item (writeString name ++ [.char ':'] ++ j.write ++ rest) = some ((name.asShown, j.asShown), rest) := by
  have hstring := readString_written name (.char ':' :: (j.write ++ rest))
  simp only [readField, writeString, List.append_assoc, List.cons_append, List.nil_append,
    skipBlanks_mark '"' (by decide), skipBlanks_mark ':' (by decide), hstring, h rest hrest, Option.map_some]

theorem readFields_written (fields : List (Text × Json)) (h : ∀ field ∈ fields, Reads item field.2) :
    ∀ (before : List (Text × Json)) (k : Nat) (rest : Text), fields.length < k →
      readFields item k before (writeFields fields ++ .char '\x7d' :: rest) =
        some (.object (before.reverse ++ fields.map fun field => (field.1.asShown, field.2.asShown)), rest) := by
  induction fields with
  | nil =>
    intro before k rest hk
    obtain ⟨k, rfl⟩ := Nat.exists_eq_succ_of_ne_zero (Nat.ne_zero_of_lt hk)
    simp [writeFields, readFields, skipBlanks]
  | cons field fields ih =>
    obtain ⟨name, j⟩ := field
    intro before k rest hk
    obtain ⟨k, rfl⟩ := Nat.exists_eq_succ_of_ne_zero (Nat.ne_zero_of_lt hk)
    have hread := readField_written name (h (name, j) (List.mem_cons_self ..)) (follows_writeFields fields rest)
    have hfields := ih (fun field hf => h field (List.mem_cons_of_mem _ hf)) ((name.asShown, j.asShown) :: before) k
      rest (Nat.lt_of_succ_lt_succ hk)
    simp only [List.append_assoc, List.cons_append, List.nil_append] at hread
    simp only [writeFields, List.append_assoc, List.cons_append, List.nil_append, readFields,
      skipBlanks_mark ',' (by decide), hread, hfields]
    simp

end Reads

theorem length_le_writeItems (items : List Json) : items.length ≤ (writeItems items).length := by
  induction items with
  | nil => exact Nat.le_refl 0
  | cons j items ih =>
    simp only [writeItems, List.length_append, List.length_cons]
    omega

theorem length_le_writeFields (fields : List (Text × Json)) : fields.length ≤ (writeFields fields).length := by
  induction fields with
  | nil => exact Nat.le_refl 0
  | cons field fields ih =>
    simp only [writeFields, List.length_append, List.length_cons]
    omega

/-- A value is read back as it is shown, in front of whatever may follow it. -/
theorem readValue_write {n : Nat} {j : Json} (h : Readable n j) : Reads (readValue n) j := by
  induction h with
  | null =>
    intro rest hrest
    unfold readValue
    rfl
  | bool b =>
    intro rest hrest
    unfold readValue
    cases b <;> rfl
  | @int n i => exact fun rest hrest => readValue_number i n hrest
  | string t =>
    intro rest hrest
    unfold readValue
    simp only [write, writeString, List.append_assoc, List.cons_append, List.nil_append,
      skipBlanks_mark '"' (by decide), readString_written, Option.map_some, asShown]
  | @array n items hitems ih =>
    intro rest hrest
    cases items with
    | nil => rfl
    | cons item items =>
      have hfirst := ih item (List.mem_cons_self ..) _ (follows_writeItems items rest)
      have hmore := readItems_written items (fun j hj => ih j (List.mem_cons_of_mem _ hj)) [item.asShown]
      -- no value begins with the bracket that would close the array
      obtain ⟨g, t, ht, hg⟩ := write_eq_cons (hitems item (List.mem_cons_self ..))
      have hclose : g ≠ .char ']' := by
        rintro rfl
        cases hg
      rw [ht] at hfirst
      simp only [write, List.append_assoc, List.cons_append, List.nil_append, ht] at hfirst ⊢
      unfold readValue
      simp only [skipBlanks_mark '[' (by decide), skipBlanks_of_opens hg]
      split
      · next heq => exact absurd (List.cons.inj heq).1 hclose
      · simp only [hfirst]
        rw [hmore]
        · simp [asShown, asShownItems, asShownItems_eq_map]
        · have := length_le_writeItems items
          simp only [List.length_append, List.length_cons]
          omega
  | @object n fields hfields ih =>
    intro rest hrest
    match fields with
    | [] => rfl
    | (name, j) :: fields =>
      have hfirst := readField_written name (ih (name, j) (List.mem_cons_self ..)) (follows_writeFields fields rest)
      have hmore := readFields_written fields (fun f hf => ih f (List.mem_cons_of_mem _ hf))
        [(name.asShown, j.asShown)]
      simp only [write, writeString, List.append_assoc, List.cons_append, List.nil_append] at hfirst ⊢
      unfold readValue
      simp only [skipBlanks_mark '\x7b' (by decide), skipBlanks_mark '"' (by decide)]
      split
      · next heq => cases heq
      · simp only [hfirst]
        rw [hmore]
        · simp [asShown, asShownFields, asShownFields_eq_map]
        · have := length_le_writeFields fields
          simp only [List.length_append, List.length_cons]
          omega

/-- A value is read back as it is shown. -/
theorem read_write {j : Json} (h : Readable maxDepth j) : read j.write = some j.asShown := by
  have hread := readValue_write h [] .nil
  rw [List.append_nil] at hread
  rw [read, hread]
  rfl

/-! ## The glyphs of a written value -/

/-- A glyph of a written value is a character, and no control character. -/
def isPlain (g : Glyph) : Bool := g.isChar && decide (0x20 ≤ g.code)

theorem isPlain_char (c : Char) : isPlain (.char c) = true ↔ 0x20 ≤ c.toNat := by
  show (true && decide (0x20 ≤ c.toNat)) = true ↔ _
  simp

theorem isPlain_digits {n : Nat} : ∀ g ∈ Text.ofNat n, isPlain g = true := by
  intro g hg
  have hpart := Text.isNumeralPart_of_mem_ofNat n g hg
  cases g with
  | stray b => cases hpart
  | char c =>
    simp only [Glyph.isNumeralPart, Bool.and_eq_true, decide_eq_true_eq] at hpart
    have hle : 0x30 ≤ c.toNat := hpart.1
    rw [isPlain_char]
    omega

theorem isPlain_ofInt (n : Int) : ∀ g ∈ Text.ofInt n, isPlain g = true := by
  cases n with
  | ofNat n => exact isPlain_digits
  | negSucc n =>
    rw [Text.ofInt, List.forall_mem_cons]
    exact ⟨rfl, isPlain_digits⟩

theorem isPlain_ofHex {n : Nat} (h : IsEscaped n) : ∀ g ∈ Text.ofHex 4 n, isPlain g = true :=
  h.elim (P := fun n => ∀ g ∈ Text.ofHex 4 n, isPlain g = true) (by decide) (by decide)

theorem isPlain_of_unescape? {c d : Char} (h : unescape? d = some c) : isPlain (.char d) = true := by
  unfold unescape? at h
  split at h
  case h_9 => cases h
  all_goals rfl

theorem isPlain_escapeChar (c : Char) : ∀ g ∈ escapeChar c, isPlain g = true := by
  rcases escapeChar_cases c with ⟨d, hd, heq⟩ | ⟨hnumber, heq⟩ | ⟨hle, -, -, heq⟩
  · rw [heq, List.forall_mem_cons, List.forall_mem_singleton]
    exact ⟨rfl, isPlain_of_unescape? hd⟩
  · rw [heq, List.forall_mem_append]
    exact ⟨by decide, isPlain_ofHex hnumber⟩
  · rw [heq, List.forall_mem_singleton]
    exact (isPlain_char c).2 hle

theorem isPlain_writeString (t : Text) : ∀ g ∈ writeString t, isPlain g = true := by
  rw [writeString, List.forall_mem_append, List.forall_mem_append]
  refine ⟨⟨by decide, ?_⟩, by decide⟩
  intro g hg
  obtain ⟨h, -, hg⟩ := List.mem_flatMap.1 hg
  exact isPlain_escapeChar h.shown g hg

theorem isPlain_writeItems {items : List Json} (h : ∀ j ∈ items, ∀ g ∈ j.write, isPlain g = true) :
    ∀ g ∈ writeItems items, isPlain g = true := by
  induction items with
  | nil => exact List.forall_mem_nil _
  | cons j items ih =>
    rw [List.forall_mem_cons] at h
    rw [writeItems, List.forall_mem_append, List.forall_mem_append]
    exact ⟨⟨by decide, h.1⟩, ih h.2⟩

theorem isPlain_writeFields {fields : List (Text × Json)}
    (h : ∀ f ∈ fields, ∀ g ∈ f.2.write, isPlain g = true) : ∀ g ∈ writeFields fields, isPlain g = true := by
  induction fields with
  | nil => exact List.forall_mem_nil _
  | cons f fields ih =>
    rw [List.forall_mem_cons] at h
    simp only [writeFields, List.forall_mem_append]
    exact ⟨⟨⟨⟨by decide, isPlain_writeString f.1⟩, by decide⟩, h.1⟩, ih h.2⟩

/-- A written value is one line of characters. -/
theorem isPlain_write {n : Nat} {j : Json} (h : Readable n j) : ∀ g ∈ j.write, isPlain g = true := by
  induction h with
  | null => rw [write]; decide
  | bool b => cases b <;> rw [write] <;> decide
  | int n => rw [int, write]; exact isPlain_ofInt n
  | string t => rw [write]; exact isPlain_writeString t
  | @array _ items hitems ih =>
    cases items with
    | nil => rw [write]; decide
    | cons item items =>
      rw [List.forall_mem_cons] at ih
      simp only [write, List.forall_mem_append]
      exact ⟨⟨⟨by decide, ih.1⟩, isPlain_writeItems ih.2⟩, by decide⟩
  | @object _ fields hfields ih =>
    match fields with
    | [] => rw [write]; decide
    | (name, j) :: fields =>
      rw [List.forall_mem_cons] at ih
      simp only [write, List.forall_mem_append]
      have hname := isPlain_writeString name
      exact ⟨⟨⟨⟨⟨by decide, hname⟩, by decide⟩, ih.1⟩, isPlain_writeFields ih.2⟩, by decide⟩

theorem isChar_write {n : Nat} {j : Json} (h : Readable n j) : ∀ g ∈ j.write, g.isChar = true := by
  intro g hg
  have hplain := isPlain_write h g hg
  rw [isPlain, Bool.and_eq_true] at hplain
  exact hplain.1

end Json
end ScriptKit
