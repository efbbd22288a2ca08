import ModelKeeper.Operator.Settings
import ModelKeeper.Proofs.Json.Numerals

/-!
# Settings that are numbers

A number is spelled by decimal digits, at least one and maybe with leading zeros, and a plus sign
may stand before them (`Settings.Spells`).

A variable sets a number if its bytes spell one of the right size (`Settings.Sets`), and otherwise
the setting is left at the default (`Settings.number_eq_iff`).  Zero is a number like others.
-/

namespace ModelKeeper.Settings

open Numeral

/-- Whether bytes spell a number: digits, and maybe a plus sign before them. -/
inductive Spells : List UInt8 → Nat → Prop
  | unsigned {ds : List Nat} : Digits ds → Spells (digitBytes ds) (valueOf 0 ds)
  | positive {ds : List Nat} : Digits ds → Spells (0x2B :: digitBytes ds) (valueOf 0 ds)

/-! ### Digits as characters -/

theorem exists_digitChar {c : Char} (h : c.isDigit) : ∃ d < 10, c = Nat.digitChar d := by
  obtain ⟨hlow, hhigh⟩ := Char.isDigit_iff_toNat.1 h
  have hlow : 48 ≤ c.toNat := hlow
  have hhigh : c.toNat ≤ 57 := hhigh
  refine ⟨c.toNat - 48, by omega, Char.toNat_inj.1 ?_⟩
  rw [Nat.toNat_digitChar_of_lt_ten (by omega)]
  omega

variable {ds : List Nat}

/-- Characters that are all digits are those of some digits. -/
theorem exists_map_digitChar {cs : List Char} (h : ∀ c ∈ cs, c.isDigit) :
    ∃ ds : List Nat, (∀ d ∈ ds, d < 10) ∧ cs = ds.map Nat.digitChar := by
  induction cs with
  | nil => exact ⟨[], nofun, rfl⟩
  | cons c cs ih =>
    obtain ⟨hc, hcs⟩ := List.forall_mem_cons.1 h
    obtain ⟨d, hd, rfl⟩ := exists_digitChar hc
    obtain ⟨ds, hds, rfl⟩ := ih hcs
    exact ⟨d :: ds, List.forall_mem_cons.2 ⟨hd, hds⟩, rfl⟩

theorem encode_map_digitChar (hds : ∀ d ∈ ds, d < 10) :
    Utf8.encode (ds.map Nat.digitChar) = digitBytes ds := by
  induction ds with
  | nil => rfl
  | cons d ds ih =>
    obtain ⟨hd, hds⟩ := List.forall_mem_cons.1 hds
    rw [List.map_cons, Utf8.encode_cons, encode_digitChar hd, ih hds]
    rfl

theorem foldl_map_digitChar (hds : ∀ d ∈ ds, d < 10) (s : Nat) :
    (ds.map Nat.digitChar).foldl (fun n c => n * 10 + (c.toNat - '0'.toNat)) s = valueOf s ds := by
  induction ds generalizing s with
  | nil => rfl
  | cons d ds ih =>
    obtain ⟨hd, hds⟩ := List.forall_mem_cons.1 hds
    have hvalue : (Nat.digitChar d).toNat - '0'.toNat = d := by
      rw [Nat.toNat_digitChar_of_lt_ten hd]
      exact Nat.add_sub_cancel_left 48 d
    rw [List.map_cons, List.foldl_cons, hvalue, ih hds]
    rfl

/-- No digit is a plus sign. -/
theorem digitChar_ne_plus {d : Nat} (h : d < 10) : Nat.digitChar d ≠ '+' := by
  intro heq
  have hcode := congrArg Char.toNat heq
  rw [Nat.toNat_digitChar_of_lt_ten h] at hcode
  change 48 + d = 43 at hcode
  omega

/-! ### Texts that spell numbers -/

/-- What stands behind a plus sign, or all if there is none. -/
def unsignedPart : List Char → List Char
  | '+' :: rest => rest
  | cs => cs

theorem eq_unsignedPart (cs : List Char) : cs = unsignedPart cs ∨ cs = '+' :: unsignedPart cs := by
  unfold unsignedPart
  split
  · exact .inr rfl
  · exact .inl rfl

theorem unsignedPart_digits (hds : Digits ds) :
    unsignedPart (ds.map Nat.digitChar) = ds.map Nat.digitChar := by
  obtain ⟨d, ds, rfl⟩ := List.exists_cons_of_ne_nil hds.1
  unfold unsignedPart
  split
  · next heq =>
    exact absurd (List.cons.inj heq).1 (digitChar_ne_plus (hds.2 d List.mem_cons_self))
  · rfl

variable {bits n : Nat} {s : String}

/-- What spells a number are the bytes of a text: of digits, behind a plus sign if there is one. -/
theorem Spells.exists_encode {bs : List UInt8} (h : Spells bs n) :
    ∃ cs ds, bs = Utf8.encode cs ∧ Digits ds ∧ unsignedPart cs = ds.map Nat.digitChar ∧
      valueOf 0 ds = n := by
  cases h with
  | @unsigned ds hds =>
    exact ⟨_, ds, (encode_map_digitChar hds.2).symm, hds, unsignedPart_digits hds, rfl⟩
  | @positive ds hds =>
    refine ⟨'+' :: ds.map Nat.digitChar, ds, ?_, hds, rfl, rfl⟩
    rw [Utf8.encode_cons, encode_map_digitChar hds.2]
    rfl

theorem spells_encode_iff {cs : List Char} :
    Spells (Utf8.encode cs) n ↔
      ∃ ds, Digits ds ∧ unsignedPart cs = ds.map Nat.digitChar ∧ valueOf 0 ds = n := by
  constructor
  · intro h
    obtain ⟨cs', ds, hbytes, hdigits⟩ := h.exists_encode
    obtain rfl := Utf8.encode_injective hbytes
    exact ⟨ds, hdigits⟩
  · rintro ⟨ds, hds, hcs, rfl⟩
    have hbytes := encode_map_digitChar hds.2
    -- with the plus sign or without it
    rcases eq_unsignedPart cs with hs | hs
    · rw [hs, hcs, hbytes]
      exact .unsigned hds
    · rw [hs, hcs, Utf8.encode_cons, hbytes]
      exact .positive hds

/-- A text gives a number exactly if its bytes spell it, and it is of the right size. -/
theorem wordOfText?_eq_some_iff :
    wordOfText? bits s = some n ↔ Spells (Utf8.ofString s) n ∧ n < twoTo bits := by
  have hopened : wordOfText? bits s =
      (if (unsignedPart s.toList).isEmpty || !(unsignedPart s.toList).all Char.isDigit then none
      else
        let n := (unsignedPart s.toList).foldl (fun n c => n * 10 + (c.toNat - '0'.toNat)) 0
        if n < twoTo bits then some n else none) := rfl
  rw [hopened, Utf8.ofString, spells_encode_iff]
  constructor
  · intro h
    split at h
    · cases h
    next hgood =>
    rw [Bool.or_eq_true, not_or, Bool.not_eq_true', Bool.not_eq_false, List.all_eq_true,
      List.isEmpty_iff] at hgood
    -- a text of digits is the text of some digits, so the fold is their value
    obtain ⟨ds, hds, hcs⟩ := exists_map_digitChar hgood.2
    rw [hcs, foldl_map_digitChar hds] at h
    obtain ⟨hfits, hn⟩ := Option.ite_none_right_eq_some.1 h
    obtain rfl := Option.some.inj hn
    refine ⟨⟨ds, ⟨?_, hds⟩, hcs, rfl⟩, hfits⟩
    rintro rfl
    exact hgood.1 hcs
  · rintro ⟨⟨ds, hds, hcs, rfl⟩, hfits⟩
    have hdigits : (ds.map Nat.digitChar).all Char.isDigit := by
      rw [List.all_eq_true]
      intro c hc
      obtain ⟨d, hd, rfl⟩ := List.mem_map.1 hc
      rw [Nat.isDigit_digitChar]
      exact decide_eq_true (hds.2 d hd)
    have hsome : (ds.map Nat.digitChar).isEmpty = false := by
      rw [List.isEmpty_eq_false_iff]
      exact fun hnil => hds.1 (List.map_eq_nil_iff.1 hnil)
    rw [hcs, hdigits, hsome, foldl_map_digitChar hds.2]
    exact if_pos hfits

/-! ### Variables -/

variable {env : Dict (List UInt8)} {name : String}

/-- Whether a variable sets a number of at most `bits` bits. -/
def Sets (env : Dict (List UInt8)) (name : String) (bits n : Nat) : Prop :=
  ∃ bytes, env.get? name = some bytes ∧ Spells bytes n ∧ n < twoTo bits

/-- The number that a variable sets, if it does. -/
def number? (env : Dict (List UInt8)) (name : String) (bits : Nat) : Option Nat :=
  ((env.get? name).bind Utf8.decode?).bind (wordOfText? bits)

theorem number?_eq_some_iff : number? env name bits = some n ↔ Sets env name bits n := by
  unfold number? Sets
  constructor
  · intro h
    obtain ⟨s, hs, hword⟩ := Option.bind_eq_some_iff.1 h
    obtain ⟨bytes, hbytes, hdecode⟩ := Option.bind_eq_some_iff.1 hs
    obtain rfl := Utf8.decode?_eq_some_iff.1 hdecode
    exact ⟨_, hbytes, wordOfText?_eq_some_iff.1 hword⟩
  · rintro ⟨bytes, hbytes, hspells, hfits⟩
    obtain ⟨cs, -, rfl, -⟩ := hspells.exists_encode
    -- bytes that spell a number are those of a text
    have htext : Utf8.ofString (String.ofList cs) = Utf8.encode cs := by
      rw [Utf8.ofString, String.toList_ofList]
    rw [← htext] at hbytes hspells
    rw [hbytes, Option.bind_some, Utf8.decode?_ofString, Option.bind_some]
    exact wordOfText?_eq_some_iff.2 ⟨hspells, hfits⟩

/-- A setting that is a number is what the variable sets, or else the default. -/
theorem number_eq_iff {default : Nat} :
    (number? env name bits).getD default = n ↔
      Sets env name bits n ∨ (∀ m, ¬ Sets env name bits m) ∧ n = default := by
  cases hnumber : number? env name bits with
  | none =>
    have hnot : ∀ m, ¬ Sets env name bits m := fun m hm => by
      rw [number?_eq_some_iff.2 hm] at hnumber
      cases hnumber
    exact ⟨fun h => .inr ⟨hnot, h.symm⟩, fun h => (h.resolve_left (hnot n)).2.symm⟩
  | some m =>
    have hm := number?_eq_some_iff.1 hnumber
    refine ⟨fun h => .inl (h ▸ hm), fun h => ?_⟩
    have hn := h.resolve_right fun hdefault => hdefault.1 m hm
    rw [← hnumber, number?_eq_some_iff.2 hn, Option.getD_some]

/-- The medium interval in seconds. -/
theorem medium_ofEnvironment (env : Dict (List UInt8)) :
    (ofEnvironment env).intervals.medium =
      ⟨(number? env "REQUEUE_MEDIUM_SECS" 64).getD 60, 0⟩ := rfl

end ModelKeeper.Settings
