import Mathlib.Data.UInt
import Mathlib.Tactic.SplitIfs
import ModelKeeper.Text.Utf8

/-!
# What UTF-8 spells can be read

The characters come back from the bytes that spell them, and no symbol among them is broken
(`Utf8.decode_encode`).  So a text comes back whether a reader insists on text (`Utf8.decode?`) or
not (`Utf8.decodeLossy`).

A reader that insists on text takes nothing else for one (`Utf8.decode?_eq_some_iff`): the bounds of
the bytes leave no second way to spell a character, whatever its first byte is (`Utf8.leads`).
-/

namespace ModelKeeper.Utf8

/-! ### The first byte -/

theorem begin_one {b : UInt8} (h : b.toNat < 0x80) : begin b = .inl (some (Char.ofNat b.toNat)) :=
  if_pos (UInt8.lt_iff_toNat_lt.2 h)

theorem begin_two {b : UInt8} (hlow : 0xC2 ≤ b.toNat) (hhigh : b.toNat < 0xE0) :
    begin b = .inr ⟨0x80, 0xBF, b.toNat - 0xC0, 0⟩ := by
  have hnot : ¬ b < 0x80 ∧ ¬ b < 0xC2 ∧ b < 0xE0 := by
    simp only [UInt8.lt_iff_toNat_lt, UInt8.reduceToNat]
    omega
  simp [begin, hnot]

/-- The second byte of three is bounded as the first one says. -/
theorem begin_three {b : UInt8} (hlow : 0xE0 ≤ b.toNat) (hhigh : b.toNat < 0xF0) :
    begin b = .inr ⟨if b.toNat = 0xE0 then 0xA0 else 0x80, if b.toNat = 0xED then 0x9F else 0xBF,
      b.toNat - 0xE0, 1⟩ := by
  have hnot : ¬ b < 0x80 ∧ ¬ b < 0xC2 ∧ ¬ b < 0xE0 ∧ b < 0xF0 := by
    simp only [UInt8.lt_iff_toNat_lt, UInt8.reduceToNat]
    omega
  have heq : ∀ n : UInt8, b = n ↔ b.toNat = n.toNat := fun n => UInt8.toNat_inj.symm
  by_cases h0 : b.toNat = 0xE0
  · simp [begin, heq, hnot, h0]
  · by_cases hD : b.toNat = 0xED
    · simp [begin, heq, hnot, hD]
    · simp [begin, heq, hnot, h0, hD]

/-- The second byte of four is bounded as the first one says. -/
theorem begin_four {b : UInt8} (hlow : 0xF0 ≤ b.toNat) (hhigh : b.toNat ≤ 0xF4) :
    begin b = .inr ⟨if b.toNat = 0xF0 then 0x90 else 0x80, if b.toNat = 0xF4 then 0x8F else 0xBF,
      b.toNat - 0xF0, 2⟩ := by
  have hnot : ¬ b < 0x80 ∧ ¬ b < 0xC2 ∧ ¬ b < 0xE0 ∧ ¬ b < 0xF0 := by
    simp only [UInt8.lt_iff_toNat_lt, UInt8.reduceToNat]
    omega
  have heq : ∀ n : UInt8, b = n ↔ b.toNat = n.toNat := fun n => UInt8.toNat_inj.symm
  have hnone : b.toNat ≠ 0xE0 ∧ b.toNat ≠ 0xED := by omega
  have hlt : b < 0xF4 ↔ b.toNat < 0xF4 := UInt8.lt_iff_toNat_lt
  -- the first and the last of these bytes narrow the range of the second one
  by_cases h0 : b.toNat = 0xF0
  · simp [begin, heq, hnot, h0]
  · by_cases h4 : b.toNat = 0xF4
    · simp [begin, heq, hlt, hnot, h4]
    · have hbelow : b.toNat < 0xF4 := by omega
      simp [begin, heq, hlt, hnot, hnone, h0, h4, hbelow]

/-! ### The others -/

theorem toNat_ofNat_of_lt {n : Nat} (h : n < 256) : (UInt8.ofNat n).toNat = n := by
  simp [Nat.mod_eq_of_lt h]

/-- A byte behind the first one holds six bits. -/
theorem toNat_tail (n : Nat) : (UInt8.ofNat (n % 64 + 128)).toNat = n % 64 + 128 :=
  toNat_ofNat_of_lt (by omega)

/-- The first byte of a character with more to come. -/
theorem go_begin {b : UInt8} {begun : Begun} (h : begin b = .inr begun) (bs : List UInt8) :
    decode.go none (b :: bs) = decode.go (some begun) bs := by
  rw [decode.go, h]

/-- A byte within the bounds. -/
theorem go_push {begun : Begun} {n : Nat} (hlow : begun.low.toNat ≤ n % 64 + 128)
    (hhigh : n % 64 + 128 ≤ begun.high.toNat) (bs : List UInt8) :
    decode.go (some begun) (UInt8.ofNat (n % 64 + 128) :: bs) =
      match begun.more with
      | 0 => some (Char.ofNat (begun.bits * 64 + n % 64)) :: decode.go none bs
      | more + 1 => decode.go (some ⟨0x80, 0xBF, begun.bits * 64 + n % 64, more⟩) bs := by
  have hbounds : begun.low ≤ UInt8.ofNat (n % 64 + 128) ∧
      UInt8.ofNat (n % 64 + 128) ≤ begun.high := by
    simp only [UInt8.le_iff_toNat_le, toNat_tail]
    exact ⟨hlow, hhigh⟩
  rw [decode.go, if_pos hbounds, Begun.push, toNat_tail, Nat.add_sub_cancel]
  cases begun.more <;> rfl

/-- A byte whose bounds are the usual ones. -/
theorem go_tail (bits more n : Nat) (bs : List UInt8) :
    decode.go (some ⟨0x80, 0xBF, bits, more⟩) (UInt8.ofNat (n % 64 + 128) :: bs) =
      match more with
      | 0 => some (Char.ofNat (bits * 64 + n % 64)) :: decode.go none bs
      | more + 1 => decode.go (some ⟨0x80, 0xBF, bits * 64 + n % 64, more⟩) bs :=
  go_push (Nat.le_add_left ..) (by simp only [UInt8.reduceToNat]; omega) bs

/-- A second byte whose bounds depend on the first one. -/
theorem go_second {m lowest highest bits more n : Nat} {low high : UInt8}
    (hlow : m = lowest → low.toNat ≤ n % 64 + 128)
    (hhigh : m = highest → n % 64 + 128 ≤ high.toNat) (bs : List UInt8) :
    decode.go (some ⟨if m = lowest then low else 0x80, if m = highest then high else 0xBF, bits,
        more + 1⟩) (UInt8.ofNat (n % 64 + 128) :: bs) =
      decode.go (some ⟨0x80, 0xBF, bits * 64 + n % 64, more⟩) bs := by
  refine go_push ?_ ?_ bs
  · dsimp only
    split
    · next h => exact hlow h
    · exact Nat.le_add_left ..
  · dsimp only
    split
    · next h => exact hhigh h
    · simp only [UInt8.reduceToNat]
      omega

/-- A character comes back from its bytes. -/
theorem go_encodeChar (c : Char) (bs : List UInt8) :
    decode.go none (String.utf8EncodeChar c ++ bs) = some c :: decode.go none bs := by
  obtain ⟨v, hv⟩ : ∃ v, c.val.toNat = v := ⟨_, rfl⟩
  have hc : Char.ofNat v = c := hv ▸ Char.ofNat_toNat c
  have hvalid : v < 0xD800 ∨ 0xDFFF < v ∧ v < 0x110000 := hv ▸ c.valid
  unfold String.utf8EncodeChar
  simp only [hv]
  -- by the number of bytes
  split
  · have hfirst := toNat_ofNat_of_lt (show v < 256 by omega)
    rw [List.singleton_append, decode.go, begin_one (by omega), hfirst, hc]
  split
  · have hfirst := toNat_ofNat_of_lt (show v / 64 % 32 + 192 < 256 by omega)
    simp only [List.cons_append, List.nil_append]
    rw [go_begin (begin_two (by omega) (by omega)), hfirst, go_tail]
    simp only
    rw [show (v / 64 % 32 + 192 - 0xC0) * 64 + v % 64 = v by omega, hc]
  split
  · have hfirst := toNat_ofNat_of_lt (show v / 4096 % 16 + 224 < 256 by omega)
    simp only [List.cons_append, List.nil_append]
    rw [go_begin (begin_three (by omega) (by omega)), hfirst,
      go_second (by simp only [UInt8.reduceToNat]; omega) (by simp only [UInt8.reduceToNat]; omega),
      go_tail]
    simp only
    rw [show ((v / 4096 % 16 + 224 - 0xE0) * 64 + v / 64 % 64) * 64 + v % 64 = v by omega, hc]
  · have hfirst := toNat_ofNat_of_lt (show v / 262144 % 8 + 240 < 256 by omega)
    simp only [List.cons_append, List.nil_append]
    rw [go_begin (begin_four (by omega) (by omega)), hfirst,
      go_second (by simp only [UInt8.reduceToNat]; omega) (by simp only [UInt8.reduceToNat]; omega),
      go_tail]
    simp only
    rw [go_tail]
    simp only
    rw [show (((v / 262144 % 8 + 240 - 0xF0) * 64 + v / 4096 % 64) * 64 + v / 64 % 64) * 64 +
      v % 64 = v by omega, hc]

/-! ### Texts -/

theorem encode_cons (c : Char) (cs : List Char) :
    encode (c :: cs) = String.utf8EncodeChar c ++ encode cs := rfl

@[simp]
theorem encode_append (cs cs' : List Char) : encode (cs ++ cs') = encode cs ++ encode cs' :=
  List.flatMap_append

theorem decode_encode (cs : List Char) : decode (encode cs) = cs.map some := by
  induction cs with
  | nil => rfl
  | cons c cs ih => exact (go_encodeChar c (encode cs)).trans (congrArg (some c :: ·) ih)

theorem characters?_map_some (cs : List Char) : characters? (cs.map some) = some cs := by
  induction cs with
  | nil => rfl
  | cons c cs ih => simp [characters?, ih]

theorem encode_injective {cs cs' : List Char} (h : encode cs = encode cs') : cs = cs' := by
  have hsymbols : cs.map some = cs'.map some := by rw [← decode_encode, ← decode_encode, h]
  exact List.map_injective_iff.2 (Option.some_injective Char) hsymbols

@[simp]
theorem decode?_ofString (s : String) : decode? (ofString s) = some s := by
  unfold decode? ofString
  rw [decode_encode, characters?_map_some, Option.map_some, String.ofList_toList]

@[simp]
theorem decodeLossy_ofString (s : String) : decodeLossy (ofString s) = s := by
  unfold decodeLossy ofString
  rw [decode_encode, List.map_map]
  exact (congrArg String.ofList (List.map_id _)).trans String.ofList_toList

/-! ### What is read -/

theorem begin_none {b : UInt8} (h : 0x80 ≤ b.toNat ∧ b.toNat < 0xC2 ∨ 0xF4 < b.toNat) :
    begin b = .inl none := by
  have hlt : ∀ n : UInt8, b < n ↔ b.toNat < n.toNat := fun n => UInt8.lt_iff_toNat_lt
  have heq : ∀ n : UInt8, b = n ↔ b.toNat = n.toNat := fun n => UInt8.toNat_inj.symm
  simp only [begin, hlt, heq, UInt8.reduceToNat]
  split_ifs <;> first | rfl | omega

/-- The bytes of a code point. -/
theorem encodeChar_ofNat {v : Nat} (hvalid : v.isValidChar) :
    String.utf8EncodeChar (Char.ofNat v) =
      if v ≤ 0x7F then [UInt8.ofNat v]
      else if v ≤ 0x7FF then [UInt8.ofNat (v / 64 % 32 + 192), UInt8.ofNat (v % 64 + 128)]
      else if v ≤ 0xFFFF then
        [UInt8.ofNat (v / 4096 % 16 + 224), UInt8.ofNat (v / 64 % 64 + 128),
          UInt8.ofNat (v % 64 + 128)]
      else
        [UInt8.ofNat (v / 262144 % 8 + 240), UInt8.ofNat (v / 4096 % 64 + 128),
          UInt8.ofNat (v / 64 % 64 + 128), UInt8.ofNat (v % 64 + 128)] := by
  have hval : (Char.ofNat v).val.toNat = v := by
    rw [Char.ofNat, dif_pos hvalid]
    rfl
  unfold String.utf8EncodeChar
  simp only [hval]

theorem ofNat_eq (b : UInt8) {n : Nat} (h : n = b.toNat) : UInt8.ofNat n = b :=
  h ▸ UInt8.ofNat_toNat

variable {low high b : UInt8} {bits more : Nat} {bs : List UInt8} {cs : List Char}

/-- A character that has been begun goes on with a byte within the bounds. -/
theorem of_go_some {begun : Begun} (h : decode.go (some begun) bs = cs.map some) :
    ∃ b bs', bs = b :: bs' ∧ begun.low.toNat ≤ b.toNat ∧ b.toNat ≤ begun.high.toNat ∧
      (match begun.push b with
        | .inl symbol => symbol :: decode.go none bs'
        | .inr begun => decode.go (some begun) bs') = cs.map some := by
  have hbroken : ∀ symbols, none :: symbols ≠ cs.map some := by
    intro symbols heq
    cases cs <;> cases heq
  cases bs with
  | nil => exact absurd h (hbroken [])
  | cons b bs' =>
    rw [decode.go] at h
    split at h
    · next hbounds =>
      exact ⟨b, bs', rfl, UInt8.le_iff_toNat_le.1 hbounds.1, UInt8.le_iff_toNat_le.1 hbounds.2, h⟩
    · exact absurd h (hbroken _)

/-- A byte that is neither the first nor the last one. -/
theorem of_go_more (h : decode.go (some ⟨0x80, 0xBF, bits, more + 1⟩) bs = cs.map some) :
    ∃ b bs', bs = b :: bs' ∧ 0x80 ≤ b.toNat ∧ b.toNat ≤ 0xBF ∧
      decode.go (some ⟨0x80, 0xBF, bits * 64 + (b.toNat - 0x80), more⟩) bs' = cs.map some :=
  of_go_some h

/-- A second byte whose bounds depend on the first one. -/
theorem of_go_second {m lowest highest : Nat} (hlow : 0x80 ≤ low.toNat) (hhigh : high.toNat ≤ 0xBF)
    (h : decode.go (some ⟨if m = lowest then low else 0x80, if m = highest then high else 0xBF,
      bits, more + 1⟩) bs = cs.map some) :
    ∃ b bs', bs = b :: bs' ∧ 0x80 ≤ b.toNat ∧ b.toNat ≤ 0xBF ∧ (m = lowest → low.toNat ≤ b.toNat) ∧
      (m = highest → b.toNat ≤ high.toNat) ∧
      decode.go (some ⟨0x80, 0xBF, bits * 64 + (b.toNat - 0x80), more⟩) bs' = cs.map some := by
  obtain ⟨b, bs', hbs, hleast, hmost, hrest⟩ := of_go_some h
  dsimp only at hleast hmost
  refine ⟨b, bs', hbs, ?_, ?_, fun hm => ?_, fun hm => ?_, hrest⟩
  · split at hleast
    · exact Nat.le_trans hlow hleast
    · exact hleast
  · split at hmost
    · exact Nat.le_trans hmost hhigh
    · exact hmost
  · rwa [if_pos hm] at hleast
  · rwa [if_pos hm] at hmost

/-- Whether bytes are those of the first character, followed by what is read as the others. -/
def Leads (bs : List UInt8) (cs : List Char) : Prop :=
  ∃ c cs' bs', cs = c :: cs' ∧ bs = String.utf8EncodeChar c ++ bs' ∧
    decode.go none bs' = cs'.map some

/-- The last byte of a character completes it, if the bytes are those of its code point. -/
theorem of_go_last (before : List UInt8)
    (h : decode.go (some ⟨low, high, bits, 0⟩) bs = cs.map some)
    (hencode : ∀ b : UInt8, low.toNat ≤ b.toNat → b.toNat ≤ high.toNat →
      String.utf8EncodeChar (Char.ofNat (bits * 64 + (b.toNat - 0x80))) = before ++ [b]) :
    Leads (before ++ bs) cs := by
  obtain ⟨b, bs', rfl, hlow, hhigh, hgo⟩ := of_go_some h
  cases cs with
  | nil => cases hgo
  | cons c cs' =>
    obtain ⟨hc, hrest⟩ := List.cons.inj hgo
    obtain rfl := Option.some.inj hc
    exact ⟨_, cs', bs', rfl, by rw [hencode b hlow hhigh, List.append_assoc]; rfl, hrest⟩

theorem leads_one (hb : b.toNat < 0x80) (h : decode.go none (b :: bs) = cs.map some) :
    Leads (b :: bs) cs := by
  rw [decode.go, begin_one hb] at h
  cases cs with
  | nil => cases h
  | cons c cs' =>
    obtain ⟨hc, hrest⟩ := List.cons.inj h
    obtain rfl := Option.some.inj hc
    refine ⟨_, cs', bs, rfl, ?_, hrest⟩
    rw [encodeChar_ofNat (.inl (by omega)), if_pos (by omega), UInt8.ofNat_toNat]
    rfl

theorem leads_two (hlow : 0xC2 ≤ b.toNat) (hhigh : b.toNat < 0xE0)
    (h : decode.go none (b :: bs) = cs.map some) : Leads (b :: bs) cs := by
  rw [go_begin (begin_two hlow hhigh)] at h
  refine of_go_last [b] h fun b₁ hlow₁ hhigh₁ => ?_
  simp only [UInt8.reduceToNat] at hlow₁ hhigh₁
  rw [encodeChar_ofNat (.inl (by omega)), if_neg (by omega), if_pos (by omega),
    ofNat_eq b (by omega), ofNat_eq b₁ (by omega)]
  rfl

theorem leads_three (hlow : 0xE0 ≤ b.toNat) (hhigh : b.toNat < 0xF0)
    (h : decode.go none (b :: bs) = cs.map some) : Leads (b :: bs) cs := by
  rw [go_begin (begin_three hlow hhigh)] at h
  obtain ⟨b₁, bs₁, rfl, hlow₁, hhigh₁, hleast, hmost, h⟩ := of_go_second (by decide) (by decide) h
  refine of_go_last [b, b₁] h fun b₂ hlow₂ hhigh₂ => ?_
  simp only [UInt8.reduceToNat] at hleast hmost hlow₂ hhigh₂
  rw [encodeChar_ofNat (by unfold Nat.isValidChar; omega), if_neg (by omega), if_neg (by omega),
    if_pos (by omega), ofNat_eq b (by omega), ofNat_eq b₁ (by omega),
    ofNat_eq b₂ (by omega)]
  rfl

theorem leads_four (hlow : 0xF0 ≤ b.toNat) (hhigh : b.toNat ≤ 0xF4)
    (h : decode.go none (b :: bs) = cs.map some) : Leads (b :: bs) cs := by
  rw [go_begin (begin_four hlow hhigh)] at h
  obtain ⟨b₁, bs₁, rfl, hlow₁, hhigh₁, hleast, hmost, h⟩ := of_go_second (by decide) (by decide) h
  obtain ⟨b₂, bs₂, rfl, hlow₂, hhigh₂, h⟩ := of_go_more h
  refine of_go_last [b, b₁, b₂] h fun b₃ hlow₃ hhigh₃ => ?_
  simp only [UInt8.reduceToNat] at hleast hmost hlow₃ hhigh₃
  rw [encodeChar_ofNat (by unfold Nat.isValidChar; omega), if_neg (by omega), if_neg (by omega),
    if_neg (by omega), ofNat_eq b (by omega), ofNat_eq b₁ (by omega),
    ofNat_eq b₂ (by omega), ofNat_eq b₃ (by omega)]
  rfl

/-- Nothing but the bytes of a character is read as one. -/
theorem leads (h : decode.go none (b :: bs) = cs.map some) : Leads (b :: bs) cs := by
  -- by the first byte
  rcases Nat.lt_or_ge b.toNat 0x80 with hone | hone
  · exact leads_one hone h
  by_cases hnone : b.toNat < 0xC2 ∨ 0xF4 < b.toNat
  · rw [decode.go, begin_none (by omega)] at h
    cases cs <;> cases h
  rcases Nat.lt_or_ge b.toNat 0xE0 with htwo | htwo
  · exact leads_two (by omega) htwo h
  rcases Nat.lt_or_ge b.toNat 0xF0 with hthree | hthree
  · exact leads_three htwo hthree h
  · exact leads_four hthree (by omega) h

theorem eq_encode_of_decode (h : decode bs = cs.map some) : bs = encode cs := by
  induction cs generalizing bs with
  | nil =>
    cases bs with
    | nil => rfl
    | cons b bs =>
      obtain ⟨c, cs', -, hcs, -⟩ := leads h
      cases hcs
  | cons c cs ih =>
    cases bs with
    | nil => cases h
    | cons b bs =>
      -- what is read as a character is its encoding, and the rest is read on its own
      obtain ⟨c', cs', bs', hcs, hbytes, hrest⟩ := leads h
      cases hcs
      rw [hbytes, ih hrest, encode_cons]

theorem map_some_of_characters? {symbols : List (Option Char)} (h : characters? symbols = some cs) :
    symbols = cs.map some := by
  induction symbols generalizing cs with
  | nil =>
    cases h
    rfl
  | cons symbol symbols ih =>
    cases symbol with
    | none => cases h
    | some c =>
      obtain ⟨cs', hrest, rfl⟩ := Option.map_eq_some_iff.1 h
      rw [ih hrest, List.map_cons]

/-- **Bytes are read as a text exactly if they are the bytes of the text.** -/
theorem decode?_eq_some_iff {s : String} : decode? bs = some s ↔ bs = ofString s := by
  constructor
  · intro h
    obtain ⟨cs, hcs, rfl⟩ := Option.map_eq_some_iff.1 h
    rw [ofString, String.toList_ofList]
    exact eq_encode_of_decode (map_some_of_characters? hcs)
  · rintro rfl
    exact decode?_ofString s

end ModelKeeper.Utf8
