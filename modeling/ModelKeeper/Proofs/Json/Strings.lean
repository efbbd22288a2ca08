import ModelKeeper.Json.Draft
import ModelKeeper.Json.Printer
import ModelKeeper.Proofs.Text.Utf8

/-!
# Strings in texts of JSON

Between the quotation marks of a string stand its letters: bytes that stand for themselves, and
escapes (`Json.Letters`).  If the letters spell characters (`Json.Spelling`), in whatever way, then
these characters are read (`Draft.scanString_closed`).  Otherwise, when half of a surrogate pair
stands alone or the bytes are no text, the reader still finds the end of the string
(`Draft.scanString_letters`), and it finds none where there are no letters
(`Draft.letters_of_closed`).

What is written of a string is one of its spellings (`Json.spelling_escape`).
-/

namespace ModelKeeper

namespace Json

/-! ### Escapes -/

/-- Whether a byte is the hexadecimal digit with a value, in either case. -/
inductive HexDigit : UInt8 → Nat → Prop
  | decimal {b n} : n < 10 → b.toNat = 0x30 + n → HexDigit b n
  | upper {b n} : n < 6 → b.toNat = 0x41 + n → HexDigit b (n + 10)
  | lower {b n} : n < 6 → b.toNat = 0x61 + n → HexDigit b (n + 10)

/-- Whether four bytes are the hexadecimal digits of a number. -/
def HexWord (a b c d : UInt8) (n : Nat) : Prop :=
  ∃ i j k l, HexDigit a i ∧ HexDigit b j ∧ HexDigit c k ∧ HexDigit d l ∧
    n = ((i * 16 + j) * 16 + k) * 16 + l

/-- The escapes of one letter, with the characters that they stand for. -/
def shortEscapes : List (UInt8 × Char) :=
  [(0x22, '"'), (0x5C, '\\'), (0x2F, '/'), (0x62, '\x08'), (0x66, '\x0c'), (0x6E, '\n'),
    (0x72, '\r'), (0x74, '\t')]

/-- What may stand between the quotation marks of a string, whether it spells a text or not. -/
inductive Letters : List UInt8 → Prop
  | nil : Letters []
  | byte {b bs} : b ≠ 0x22 → b ≠ 0x5C → 0x20 ≤ b.toNat → Letters bs → Letters (b :: bs)
  | short {e ch bs} : (e, ch) ∈ shortEscapes → Letters bs → Letters (0x5C :: e :: bs)
  | code {a b c d n bs} : HexWord a b c d n → Letters bs →
    Letters (0x5C :: 0x75 :: a :: b :: c :: d :: bs)

/-- The letters of a string and the characters that they spell. -/
inductive Spelling : List UInt8 → List Char → Prop
  | nil : Spelling [] []
  | plain {c bs cs} : c ≠ '"' → c ≠ '\\' → 0x20 ≤ c.toNat → Spelling bs cs →
    Spelling (String.utf8EncodeChar c ++ bs) (c :: cs)
  | short {e ch bs cs} : (e, ch) ∈ shortEscapes → Spelling bs cs →
    Spelling (0x5C :: e :: bs) (ch :: cs)
  | code {a b c d ch bs cs} : HexWord a b c d ch.toNat → Spelling bs cs →
    Spelling (0x5C :: 0x75 :: a :: b :: c :: d :: bs) (ch :: cs)
  /-- A character beyond the first `0x10000` is spelled by the two halves of a surrogate pair. -/
  | pair {a b c d a' b' c' d' n m ch bs cs} : HexWord a b c d (0xD800 + n) →
    HexWord a' b' c' d' (0xDC00 + m) → n < 0x400 → m < 0x400 →
    ch.toNat = 0x10000 + n * 0x400 + m → Spelling bs cs →
    Spelling (0x5C :: 0x75 :: a :: b :: c :: d :: 0x5C :: 0x75 :: a' :: b' :: c' :: d' :: bs)
      (ch :: cs)

end Json

namespace Draft

open Json

variable {a b c d e a' b' c' d' : UInt8} {n m : Nat} {reversed bs rest : List UInt8}
  {spoiled : Bool}

theorem hexValue?_eq (h : HexDigit b n) : hexValue? b = some n := by
  cases h with
  | decimal hn hb =>
    have hrange : 0x30 ≤ b ∧ b ≤ 0x39 := by
      simp only [UInt8.le_iff_toNat_le, UInt8.reduceToNat]
      omega
    rw [hexValue?, if_pos hrange, hb, Nat.add_sub_cancel_left]
  | upper hn hb =>
    have hrange : ¬ (0x30 ≤ b ∧ b ≤ 0x39) ∧ (0x41 ≤ b ∧ b ≤ 0x46) := by
      simp only [UInt8.le_iff_toNat_le, UInt8.reduceToNat]
      omega
    rw [hexValue?, if_neg hrange.1, if_pos hrange.2, hb, Nat.add_sub_cancel_left]
  | lower hn hb =>
    have hrange : ¬ (0x30 ≤ b ∧ b ≤ 0x39) ∧ ¬ (0x41 ≤ b ∧ b ≤ 0x46) ∧ (0x61 ≤ b ∧ b ≤ 0x66) := by
      simp only [UInt8.le_iff_toNat_le, UInt8.reduceToNat]
      omega
    rw [hexValue?, if_neg hrange.1, if_neg hrange.2.1, if_pos hrange.2.2, hb,
      Nat.add_sub_cancel_left]

theorem hexWord?_eq (h : HexWord a b c d n) : hexWord? a b c d = some n := by
  obtain ⟨i, j, k, l, ha, hb, hc, hd, rfl⟩ := h
  simp [hexWord?, hexValue?_eq ha, hexValue?_eq hb, hexValue?_eq hc, hexValue?_eq hd]

theorem shortEscape?_eq {ch : Char} (h : (e, ch) ∈ shortEscapes) :
    ∃ b, shortEscape? e = some b ∧ String.utf8EncodeChar ch = [b] := by
  simp only [shortEscapes, List.mem_cons, Prod.mk.injEq, List.not_mem_nil, or_false] at h
  rcases h with ⟨rfl, rfl⟩ | ⟨rfl, rfl⟩ | ⟨rfl, rfl⟩ | ⟨rfl, rfl⟩ | ⟨rfl, rfl⟩ | ⟨rfl, rfl⟩ |
    ⟨rfl, rfl⟩ | ⟨rfl, rfl⟩ <;> exact ⟨_, rfl, by decide⟩

theorem hexDigit_of_hexValue? (h : hexValue? b = some n) : HexDigit b n := by
  unfold hexValue? at h
  simp only [UInt8.le_iff_toNat_le, UInt8.reduceToNat] at h
  split at h
  · obtain rfl := Option.some.inj h
    exact .decimal (by omega) (by omega)
  split at h
  · obtain rfl := Option.some.inj h
    exact .upper (by omega) (by omega)
  split at h
  · obtain rfl := Option.some.inj h
    exact .lower (by omega) (by omega)
  · cases h

theorem hexWord_of_hexWord? (h : hexWord? a b c d = some n) : HexWord a b c d n := by
  simp only [hexWord?, Option.bind_eq_bind, Option.bind_eq_some_iff, Option.pure_def,
    Option.some.injEq] at h
  obtain ⟨i, hi, j, hj, k, hk, l, hl, rfl⟩ := h
  exact ⟨i, j, k, l, hexDigit_of_hexValue? hi, hexDigit_of_hexValue? hj, hexDigit_of_hexValue? hk,
    hexDigit_of_hexValue? hl, rfl⟩

theorem mem_shortEscapes (h : shortEscape? e = some b) : ∃ ch, (e, ch) ∈ shortEscapes := by
  have hall : ∀ e ∈ shortEscapes.map (·.1), ∃ ch, (e, ch) ∈ shortEscapes := fun e he => by
    obtain ⟨m, hm, rfl⟩ := List.mem_map.1 he
    exact ⟨m.2, hm⟩
  refine hall e ?_
  unfold shortEscape? at h
  simp only [shortEscapes, List.map_cons, List.map_nil, List.mem_cons, List.not_mem_nil, or_false]
  grind

/-! ### One step of the reader -/

-- the equations of the reader are made here once, and not by each of the lemmas below
attribute [local simp] scanString in
theorem scanString_quote :
    scanString reversed spoiled (0x22 :: rest) =
      .closed (if spoiled then none else Utf8.decode? reversed.reverse) rest := by
  simp

theorem scanString_byte (hquote : b ≠ 0x22) (hescape : b ≠ 0x5C) (hcontrol : 0x20 ≤ b.toNat) :
    scanString reversed spoiled (b :: rest) = scanString (b :: reversed) spoiled rest := by
  have hnot : ¬ b < 0x20 := by
    simp only [UInt8.lt_iff_toNat_lt, UInt8.reduceToNat]
    omega
  rw [scanString]
  · rw [if_neg hnot]
  all_goals simp_all

theorem ne_u_of_shortEscape? (h : shortEscape? e = some b) : e ≠ 0x75 := by
  rintro rfl
  cases h

theorem scanString_short (h : shortEscape? e = some b) :
    scanString reversed spoiled (0x5C :: e :: rest) = scanString (b :: reversed) spoiled rest := by
  have hu := ne_u_of_shortEscape? h
  rw [scanString, h]
  all_goals simp_all

theorem scanString_code (hword : hexWord? a b c d = some n) (hchar : n < 0xD800 ∨ 0xDFFF < n) :
    scanString reversed spoiled (0x5C :: 0x75 :: a :: b :: c :: d :: rest) =
      scanString ((codeBytes n).reverse ++ reversed) spoiled rest := by
  rw [scanString, hword]
  simp only
  rw [if_neg (by omega), if_neg (by omega)]

theorem scanString_pair (hhigh : hexWord? a b c d = some (0xD800 + n)) (hn : n < 0x400)
    (hlow : hexWord? a' b' c' d' = some (0xDC00 + m)) (hm : m < 0x400) :
    scanString reversed spoiled
        (0x5C :: 0x75 :: a :: b :: c :: d :: 0x5C :: 0x75 :: a' :: b' :: c' :: d' :: rest) =
      scanString ((codeBytes (0x10000 + n * 0x400 + m)).reverse ++ reversed) spoiled rest := by
  rw [scanString, hhigh]
  simp only [hlow]
  rw [if_neg (by omega), if_pos (by omega), if_pos (by omega), Nat.add_sub_cancel_left,
    Nat.add_sub_cancel_left]

theorem scanString_low (hword : hexWord? a b c d = some n) (hlow : 0xDC00 ≤ n) (hn : n ≤ 0xDFFF) :
    scanString reversed spoiled (0x5C :: 0x75 :: a :: b :: c :: d :: rest) =
      scanString reversed true rest := by
  rw [scanString, hword]
  simp only
  rw [if_pos ⟨hlow, hn⟩]

/-- A second escape of a code behind the first half of a surrogate pair is taken along with it. -/
theorem scanString_high_code (hhigh : hexWord? a b c d = some n) (hlow : 0xD800 ≤ n)
    (hn : n ≤ 0xDBFF) (hword : hexWord? a' b' c' d' = some m) (reversed : List UInt8)
    (spoiled : Bool) :
    ∃ reversed' spoiled', ∀ rest, scanString reversed spoiled
        (0x5C :: 0x75 :: a :: b :: c :: d :: 0x5C :: 0x75 :: a' :: b' :: c' :: d' :: rest) =
      scanString reversed' spoiled' rest := by
  simp only [scanString, hhigh, hword, if_neg (show ¬ (0xDC00 ≤ n ∧ n ≤ 0xDFFF) by omega),
    if_pos (And.intro hlow hn)]
  split
  · exact ⟨_, _, fun _ => rfl⟩
  · split
    · exact ⟨_, _, fun _ => rfl⟩
    · exact ⟨_, _, fun _ => rfl⟩

theorem scanString_high_byte (hhigh : hexWord? a b c d = some n) (hlow : 0xD800 ≤ n)
    (hn : n ≤ 0xDBFF) (he : e ≠ 0x5C) :
    scanString reversed spoiled (0x5C :: 0x75 :: a :: b :: c :: d :: e :: rest) =
      scanString reversed true (e :: rest) := by
  rw [scanString, hhigh]
  simp only
  rw [if_neg (by omega), if_pos ⟨hlow, hn⟩]
  simp [he]

theorem scanString_high_short (hhigh : hexWord? a b c d = some n) (hlow : 0xD800 ≤ n)
    (hn : n ≤ 0xDBFF) (he : e ≠ 0x75) :
    scanString reversed spoiled (0x5C :: 0x75 :: a :: b :: c :: d :: 0x5C :: e :: rest) =
      scanString reversed true (0x5C :: e :: rest) := by
  rw [scanString, hhigh]
  simp only
  rw [if_neg (by omega), if_pos ⟨hlow, hn⟩]
  simp [he]

/-! ### Strings that spell a text -/

theorem le_toNat_ofNat (hlow : 0x80 ≤ n) (hhigh : n < 0x100) : 0x80 ≤ (UInt8.ofNat n).toNat := by
  rwa [Utf8.toNat_ofNat_of_lt hhigh]

/-- A byte of a character is the character itself, or it is one of those that only stand in longer
characters. -/
theorem toNat_of_mem_utf8EncodeChar {ch : Char} (h : b ∈ String.utf8EncodeChar ch) :
    b.toNat = ch.toNat ∨ 0x80 ≤ b.toNat := by
  rw [Char.toNat]
  unfold String.utf8EncodeChar at h
  generalize ch.val.toNat = v at h ⊢
  simp only at h
  split at h
  · rw [List.mem_singleton.1 h, Utf8.toNat_ofNat_of_lt (by omega)]
    exact .inl rfl
  -- every byte of a longer encoding has its highest bit set
  right
  simp only [apply_ite (b ∈ ·), List.mem_cons, List.not_mem_nil, or_false] at h
  split at h
  · rcases h with rfl | rfl <;> exact le_toNat_ofNat (by omega) (by omega)
  split at h
  · rcases h with rfl | rfl | rfl <;> exact le_toNat_ofNat (by omega) (by omega)
  · rcases h with rfl | rfl | rfl | rfl <;> exact le_toNat_ofNat (by omega) (by omega)

/-- Bytes that stand for themselves. -/
theorem scanString_bytes {text : List UInt8}
    (h : ∀ b ∈ text, b ≠ 0x22 ∧ b ≠ 0x5C ∧ 0x20 ≤ b.toNat) :
    scanString reversed spoiled (text ++ rest) =
      scanString (text.reverse ++ reversed) spoiled rest := by
  induction text generalizing reversed with
  | nil => rfl
  | cons b text ih =>
    obtain ⟨hquote, hescape, hcontrol⟩ := h b List.mem_cons_self
    rw [List.cons_append, scanString_byte hquote hescape hcontrol,
      ih fun b' hb' => h b' (List.mem_cons_of_mem _ hb'), List.reverse_cons, List.append_assoc]
    rfl

theorem plain_of_mem_utf8EncodeChar {ch : Char} (hquote : ch ≠ '"') (hescape : ch ≠ '\\')
    (hcontrol : 0x20 ≤ ch.toNat) :
    ∀ b ∈ String.utf8EncodeChar ch, b ≠ 0x22 ∧ b ≠ 0x5C ∧ 0x20 ≤ b.toNat := by
  have hcode : ∀ {ch' : Char}, ch ≠ ch' → ch.toNat ≠ ch'.toNat := fun hne heq =>
    hne (Char.toNat_inj.1 heq)
  intro b hb
  have hne : ∀ m : UInt8, m.toNat ≠ ch.toNat → m.toNat < 0x80 → b ≠ m := fun m hm hlow heq => by
    have := toNat_of_mem_utf8EncodeChar hb
    subst heq
    omega
  refine ⟨hne _ (hcode hquote).symm (by decide), hne _ (hcode hescape).symm (by decide), ?_⟩
  have := toNat_of_mem_utf8EncodeChar hb
  omega

theorem codeBytes_toNat (ch : Char) : codeBytes ch.toNat = String.utf8EncodeChar ch := by
  rw [codeBytes, Char.ofNat_toNat]

/-- **What letters spell is read from them.** -/
theorem scanString_spelling {text : List UInt8} {cs : List Char} (h : Spelling text cs) :
    scanString reversed spoiled (text ++ rest) =
      scanString ((Utf8.encode cs).reverse ++ reversed) spoiled rest := by
  induction h generalizing reversed with
  | nil => rfl
  | plain hquote hescape hcontrol hrest ih =>
    rw [List.append_assoc, scanString_bytes (plain_of_mem_utf8EncodeChar hquote hescape hcontrol),
      ih, Utf8.encode_cons, List.reverse_append, List.append_assoc]
  | short he hrest ih =>
    obtain ⟨b, hb, hbytes⟩ := shortEscape?_eq he
    rw [List.cons_append, List.cons_append, scanString_short hb, ih, Utf8.encode_cons, hbytes,
      List.reverse_append, List.append_assoc]
    rfl
  | @code a b c d ch bs cs hword hrest ih =>
    have hchar : ch.toNat < 0xD800 ∨ 0xDFFF < ch.toNat := ch.valid.imp_right (·.1)
    simp only [List.cons_append]
    rw [scanString_code (hexWord?_eq hword) hchar, ih, Utf8.encode_cons, codeBytes_toNat,
      List.reverse_append, List.append_assoc]
  | pair hhigh hlow hn hm hcode hrest ih =>
    simp only [List.cons_append]
    rw [scanString_pair (hexWord?_eq hhigh) hn (hexWord?_eq hlow) hm, ih, Utf8.encode_cons, ← hcode,
      codeBytes_toNat, List.reverse_append, List.append_assoc]

/-- The text of a string, up to its closing quotation mark. -/
theorem scanString_closed {text : List UInt8} {cs : List Char} (h : Spelling text cs) :
    scanString [] false (text ++ 0x22 :: rest) = .closed (some (String.ofList cs)) rest := by
  have hdecode : Utf8.decode? (Utf8.encode cs) = some (String.ofList cs) := by
    rw [← Utf8.decode?_ofString, Utf8.ofString, String.toList_ofList]
  rw [scanString_spelling h, scanString_quote, List.append_nil, List.reverse_reverse, hdecode]
  rfl

/-! ### All strings -/

/-- **The end of a string is found**, whatever its letters spell.

Behind the first half of a surrogate pair the reader takes two escapes at once, so the letters that
are left are also looked at with such a half before them. -/
theorem scanString_letters {text : List UInt8} (h : Letters text) :
    ∀ reversed spoiled, ∃ s, ∀ rest,
      scanString reversed spoiled (text ++ 0x22 :: rest) = .closed s rest := by
  -- the first half of a pair may be in front of the letters, which the induction has to allow
  suffices hboth : (∀ reversed spoiled, ∃ s, ∀ rest,
        scanString reversed spoiled (text ++ 0x22 :: rest) = .closed s rest) ∧
      ∀ {a b c d n}, hexWord? a b c d = some n → 0xD800 ≤ n → n ≤ 0xDBFF →
        ∀ reversed spoiled, ∃ s, ∀ rest, scanString reversed spoiled
          (0x5C :: 0x75 :: a :: b :: c :: d :: (text ++ 0x22 :: rest)) = .closed s rest from
    hboth.1
  induction h with
  | nil =>
    refine ⟨fun _ _ => ⟨_, fun _ => scanString_quote⟩, fun hhigh hlow hn _ _ => ?_⟩
    have hquote : (0x22 : UInt8) ≠ 0x5C := by decide
    simp only [List.nil_append, scanString_high_byte hhigh hlow hn hquote]
    exact ⟨_, fun _ => scanString_quote⟩
  | byte hquote hescape hcontrol hrest ih =>
    refine ⟨fun reversed spoiled => ?_, fun hhigh hlow hn reversed _ => ?_⟩
    · simp only [List.cons_append, scanString_byte hquote hescape hcontrol]
      exact ih.1 _ _
    · simp only [List.cons_append, scanString_high_byte hhigh hlow hn hescape,
        scanString_byte hquote hescape hcontrol]
      exact ih.1 _ _
  | short he hrest ih =>
    obtain ⟨b, hb, -⟩ := shortEscape?_eq he
    refine ⟨fun reversed spoiled => ?_, fun hhigh hlow hn reversed _ => ?_⟩
    · simp only [List.cons_append, scanString_short hb]
      exact ih.1 _ _
    · simp only [List.cons_append,
        scanString_high_short hhigh hlow hn (ne_u_of_shortEscape? hb), scanString_short hb]
      exact ih.1 _ _
  | @code a b c d n bs hword hrest ih =>
    have hread := hexWord?_eq hword
    refine ⟨fun reversed spoiled => ?_, fun hhigh hlow hn reversed spoiled => ?_⟩
    · simp only [List.cons_append]
      -- a character, the first half of a pair, the second half, or a character again
      rcases Nat.lt_or_ge n 0xD800 with hlow | hlow
      · simp only [scanString_code hread (.inl hlow)]
        exact ih.1 _ _
      rcases Nat.lt_or_ge n 0xDC00 with hhalf | hhalf
      · exact ih.2 hread hlow (by omega) _ _
      rcases Nat.lt_or_ge n 0xE000 with hn | hn
      · simp only [scanString_low hread hhalf (Nat.le_of_lt_succ hn)]
        exact ih.1 _ _
      · simp only [scanString_code hread (.inr hn)]
        exact ih.1 _ _
    · obtain ⟨reversed', spoiled', heq⟩ :=
        scanString_high_code hhigh hlow hn hread reversed spoiled
      simp only [List.cons_append, heq]
      exact ih.1 _ _

/-- **A string that the reader finds the end of has letters.** -/
theorem letters_of_closed {s : Option String}
    (h : scanString reversed spoiled bs = .closed s rest) :
    ∃ text, Letters text ∧ bs = text ++ 0x22 :: rest := by
  have hcode : ∀ {a b c d n bs}, hexWord? a b c d = some n →
      (∃ text, Letters text ∧ bs = text ++ 0x22 :: rest) →
        ∃ text, Letters text ∧
          0x5C :: 0x75 :: a :: b :: c :: d :: bs = text ++ 0x22 :: rest := by
    rintro a b c d n _ hword ⟨text, htext, rfl⟩
    exact ⟨_, .code (hexWord_of_hexWord? hword) htext, rfl⟩
  fun_induction scanString reversed spoiled bs
  case case2 =>
    cases h
    exact ⟨[], .nil, rfl⟩
  -- one escape of a code, or two that are taken together
  case case5 hword _ ih => exact hcode hword (ih h)
  case case9 hhigh _ _ _ _ _ _ _ _ hlow _ _ ih => exact hcode hhigh (hcode hlow (ih h))
  case case10 hhigh _ _ _ _ _ _ _ _ hlow _ _ ih => exact hcode hhigh (hcode hlow (ih h))
  case case11 hhigh _ _ _ _ _ _ _ _ hlow _ _ ih => exact hcode hhigh (hcode hlow (ih h))
  case case13 hword _ _ _ _ _ _ _ ih => exact hcode hword (ih h)
  case case14 hword _ _ ih => exact hcode hword (ih h)
  case case16 he ih =>
    obtain ⟨text, htext, rfl⟩ := ih h
    obtain ⟨ch, hmem⟩ := mem_shortEscapes he
    exact ⟨_, .short hmem htext, rfl⟩
  case case19 b tail hquote hend _ _ hescape hcontrol ih =>
    have hne : b ≠ 0x5C := fun heq => by
      cases tail with
      | nil => exact hend heq rfl
      | cons e tail => exact hescape e tail heq rfl
    obtain ⟨text, htext, rfl⟩ := ih h
    have hcontrol : 0x20 ≤ b.toNat := UInt8.le_iff_toNat_le.1 (UInt8.not_lt.1 hcontrol)
    exact ⟨_, .byte hquote hne hcontrol htext, rfl⟩
  -- the others come to no end
  all_goals cases h

end Draft

/-! ### What is written of a string -/

namespace Json

theorem hexDigit_hexDigit {n : Nat} (h : n < 16) :
    ∃ b : UInt8, String.utf8EncodeChar (hexDigit n) = [b] ∧ HexDigit b n := by
  have hall : ∀ n : Fin 16, String.utf8EncodeChar (hexDigit n) =
      [UInt8.ofNat (if n.val < 10 then 0x30 + n else 0x57 + n)] := by
    decide +kernel
  refine ⟨_, hall ⟨n, h⟩, ?_⟩
  dsimp only
  rcases Nat.lt_or_ge n 10 with hn | hn
  · exact .decimal hn (by rw [if_pos hn, Utf8.toNat_ofNat_of_lt (by omega)])
  · obtain ⟨m, rfl⟩ := Nat.exists_eq_add_of_le' hn
    exact .lower (by omega) (by rw [if_neg (by omega), Utf8.toNat_ofNat_of_lt (by omega)]; omega)

/-- An escaped character is spelled by its short form, by its code, or by itself. -/
theorem spelling_escape_append {c : Char} {bs : List UInt8} {cs : List Char} (h : Spelling bs cs) :
    Spelling (Utf8.encode (escape c) ++ bs) (c :: cs) := by
  have hall : ∀ m ∈ shortEscapes, m.2 ≠ '/' → Utf8.encode (escape m.2) = [0x5C, m.1] := by decide
  -- a short escape, a control character in hexadecimal digits, or the character itself
  by_cases hshort : ∃ e, (e, c) ∈ shortEscapes ∧ c ≠ '/'
  · obtain ⟨e, he, hne⟩ := hshort
    rw [hall _ he hne]
    exact .short he h
  have hnot : ∀ e c', (e, c') ∈ shortEscapes → c' ≠ '/' → c ≠ c' := fun e c' he hne heq =>
    hshort ⟨e, heq ▸ he, heq ▸ hne⟩
  have hquote := hnot 0x22 '"' (by decide) (by decide)
  have hescape := hnot 0x5C '\\' (by decide) (by decide)
  have hunescaped : escape c = if c.toNat < 0x20 then
      ['\\', 'u', '0', '0', hexDigit (c.toNat / 16), hexDigit (c.toNat % 16)] else [c] := by
    rw [escape, if_neg hquote, if_neg hescape, if_neg (hnot 0x6E _ (by decide) (by decide)),
      if_neg (hnot 0x72 _ (by decide) (by decide)), if_neg (hnot 0x74 _ (by decide) (by decide)),
      if_neg (hnot 0x62 _ (by decide) (by decide)), if_neg (hnot 0x66 _ (by decide) (by decide))]
  rw [hunescaped]
  split
  · next hcontrol =>
    obtain ⟨b, hb, hhigh⟩ := hexDigit_hexDigit (show c.toNat / 16 < 16 by omega)
    obtain ⟨b', hb', hlow⟩ := hexDigit_hexDigit (show c.toNat % 16 < 16 by omega)
    have hzero : HexDigit 0x30 0 := .decimal (by omega) rfl
    simp only [Utf8.encode_cons, hb, hb']
    exact .code ⟨0, 0, _, _, hzero, hzero, hhigh, hlow, by omega⟩ h
  · next hcontrol =>
    rw [Utf8.encode_cons, Utf8.encode, List.flatMap_nil, List.append_nil]
    exact .plain hquote hescape (by omega) h

/-- **What is written of a string spells it.** -/
theorem spelling_escape (cs : List Char) : Spelling (Utf8.encode (cs.flatMap escape)) cs := by
  induction cs with
  | nil => exact .nil
  | cons c cs ih =>
    rw [List.flatMap_cons, Utf8.encode_append]
    exact spelling_escape_append ih

end Json

end ModelKeeper
