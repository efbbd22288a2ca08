import ModelKeeper.Json.Draft
import ModelKeeper.Json.Printer
import ModelKeeper.Proofs.Text.Utf8

/-!
# Numerals in texts of JSON

The reader takes a numeral exactly where one is spelled (`Numeral.Spelling`): it is read from its
spelling, if what follows cannot belong to it (`Draft.scanNumber_spelling`), and nothing else is
taken for a numeral (`Draft.spelling_of_scanNumber`).

An integer is written as a numeral without fraction and exponent, and if it fits 64 bits the value
of this numeral is the integer again (`Number.exists_numeral`).
-/

namespace ModelKeeper

namespace Numeral

/-- Digits as bytes. -/
def digitBytes (ds : List Nat) : List UInt8 := ds.map fun d => UInt8.ofNat (0x30 + d)

/-- Whether these are decimal digits, at least one. -/
def Digits (ds : List Nat) : Prop := ds ≠ [] ∧ ∀ d ∈ ds, d < 10

/-- The digits before the point: a leading zero stands alone. -/
def Whole (ds : List Nat) : Prop := Digits ds ∧ (ds.head? = some 0 → ds = [0])

/-- The digits of a fraction and how they are spelled. -/
inductive Fraction : List Nat → List UInt8 → Prop
  | absent : Fraction [] []
  | digits {ds} : Digits ds → Fraction ds (0x2E :: digitBytes ds)

/-- An exponent and how it is spelled. -/
inductive Exponent : Option (Bool × List Nat) → List UInt8 → Prop
  | absent : Exponent none []
  | unsigned {e ds} : e = 0x65 ∨ e = 0x45 → Digits ds →
    Exponent (some (false, ds)) (e :: digitBytes ds)
  | positive {e ds} : e = 0x65 ∨ e = 0x45 → Digits ds →
    Exponent (some (false, ds)) (e :: 0x2B :: digitBytes ds)
  | negative {e ds} : e = 0x65 ∨ e = 0x45 → Digits ds →
    Exponent (some (true, ds)) (e :: 0x2D :: digitBytes ds)

/-- Whether bytes spell a numeral. -/
def Spelling (n : Numeral) (bs : List UInt8) : Prop :=
  Whole n.whole ∧ ∃ fraction exponent, Fraction n.fraction fraction ∧
    Exponent n.exponent exponent ∧
    bs = (if n.negative then [0x2D] else []) ++ digitBytes n.whole ++ fraction ++ exponent

end Numeral

namespace Draft

open Numeral

variable {b : UInt8} {ds : List Nat} {bs rest : List UInt8}

/-- Whether what follows a numeral cannot belong to it. -/
def EndsNumber (rest : List UInt8) : Prop :=
  ∀ b ∈ rest.head?, isDigit b = false ∧ b ≠ 0x2E ∧ b ≠ 0x65 ∧ b ≠ 0x45

/-- Whether bytes do not begin with a digit. -/
def EndsDigits (rest : List UInt8) : Prop := ∀ b ∈ rest.head?, isDigit b = false

theorem EndsNumber.endsDigits (h : EndsNumber rest) : EndsDigits rest := fun b hb => (h b hb).1

/-! ### Digits -/

theorem isDigit_iff : isDigit b ↔ 0x30 ≤ b.toNat ∧ b.toNat ≤ 0x39 := by
  simp only [isDigit, Bool.and_eq_true, decide_eq_true_eq, UInt8.le_iff_toNat_le,
    UInt8.reduceToNat]

theorem digitBytes_cons (d : Nat) (ds : List Nat) :
    digitBytes (d :: ds) = UInt8.ofNat (0x30 + d) :: digitBytes ds := rfl

theorem toNat_digit {d : Nat} (h : d < 10) : (UInt8.ofNat (0x30 + d)).toNat = 0x30 + d :=
  Utf8.toNat_ofNat_of_lt (by omega)

theorem takeDigits_of_endsDigits (h : EndsDigits rest) : takeDigits rest = ([], rest) := by
  cases rest with
  | nil => rfl
  | cons b rest => rw [takeDigits, if_neg (by rw [h b rfl]; exact Bool.false_ne_true)]

theorem takeDigits_digitBytes (hds : ∀ d ∈ ds, d < 10) (hrest : EndsDigits rest) :
    takeDigits (digitBytes ds ++ rest) = (ds, rest) := by
  induction ds with
  | nil => exact takeDigits_of_endsDigits hrest
  | cons d ds ih =>
    have hd := toNat_digit (hds d List.mem_cons_self)
    have hdigit : isDigit (UInt8.ofNat (0x30 + d)) := by
      have := hds d List.mem_cons_self
      rw [isDigit_iff, hd]
      omega
    have htail := ih fun d' hd' => hds d' (List.mem_cons_of_mem _ hd')
    rw [digitBytes_cons, List.cons_append, takeDigits, if_pos hdigit, htail, hd,
      Nat.add_sub_cancel_left]

/-- What is taken are digits. -/
theorem of_takeDigits (h : takeDigits bs = (ds, rest)) :
    bs = digitBytes ds ++ rest ∧ ∀ d ∈ ds, d < 10 := by
  induction bs generalizing ds rest with
  | nil =>
    cases h
    exact ⟨rfl, nofun⟩
  | cons b bs ih =>
    rw [takeDigits] at h
    split at h
    · next hdigit =>
      obtain ⟨ds', rest', htake⟩ : ∃ ds' rest', takeDigits bs = (ds', rest') := ⟨_, _, rfl⟩
      rw [htake] at h
      cases h
      obtain ⟨rfl, hds⟩ := ih htake
      rw [isDigit_iff] at hdigit
      have hb : UInt8.ofNat (0x30 + (b.toNat - 0x30)) = b := by
        rw [Nat.add_sub_cancel' hdigit.1, UInt8.ofNat_toNat]
      refine ⟨by rw [digitBytes_cons, hb]; rfl, fun d hd => ?_⟩
      rcases List.mem_cons.1 hd with rfl | hd
      · omega
      · exact hds d hd
    · cases h
      exact ⟨rfl, nofun⟩

theorem someDigits_digits (hds : Digits ds) (hrest : EndsDigits rest) :
    someDigits (digitBytes ds ++ rest) = .ok (ds, rest) := by
  have htake := takeDigits_digitBytes hds.2 hrest
  obtain ⟨d, ds, rfl⟩ := List.exists_cons_of_ne_nil hds.1
  rw [digitBytes_cons, List.cons_append] at htake ⊢
  unfold someDigits
  simp only [htake]

theorem of_someDigits (h : someDigits bs = .ok (ds, rest)) :
    Digits ds ∧ bs = digitBytes ds ++ rest := by
  unfold someDigits at h
  split at h
  · cases h
  · cases h
  · next hne =>
    have htake := Except.ok.inj h
    obtain ⟨hbs, hds⟩ := of_takeDigits htake
    exact ⟨⟨fun heq => hne _ (by rw [htake, heq]), hds⟩, hbs⟩

theorem wholeDigits_digits (hds : Whole ds) (hrest : EndsDigits rest) :
    wholeDigits (digitBytes ds ++ rest) = .ok (ds, rest) := by
  rw [wholeDigits, someDigits_digits hds.1 hrest]
  simp only [bind, Except.bind]
  split
  · next heq => cases hds.2 rfl
  · rfl

theorem of_wholeDigits (h : wholeDigits bs = .ok (ds, rest)) :
    Whole ds ∧ bs = digitBytes ds ++ rest := by
  rw [wholeDigits] at h
  cases hsome : someDigits bs with
  | error e =>
    rw [hsome] at h
    cases h
  | ok found =>
    obtain ⟨ds', rest'⟩ := found
    obtain ⟨hds, hbs⟩ := of_someDigits hsome
    rw [hsome] at h
    simp only [bind, Except.bind] at h
    split at h
    · cases h
    · next hzero =>
      cases h
      -- a leading zero has been let through only as the only digit
      refine ⟨⟨hds, fun hhead => ?_⟩, hbs⟩
      cases ds with
      | nil => cases hhead
      | cons d ds =>
        obtain rfl := Option.some.inj hhead
        cases ds with
        | nil => rfl
        | cons d' ds => exact absurd rfl (hzero d' ds)

/-! ### The parts of a numeral -/

/-- The digits of a fraction, if there is a point. -/
def scanFraction : List UInt8 → Except Break (List Nat × List UInt8)
  | 0x2E :: rest => someDigits rest
  | bs => pure ([], bs)

/-- The digits of an exponent behind its letter. -/
def scanExponent.digits (rest : List UInt8) :
    Except Break (Option (Bool × List Nat) × List UInt8) := do
  let (below, rest) := match rest with
    | 0x2B :: rest => (false, rest)
    | 0x2D :: rest => (true, rest)
    | rest => (false, rest)
  let (ds, rest) ← someDigits rest
  pure (some (below, ds), rest)

/-- The exponent, if there is one. -/
def scanExponent : List UInt8 → Except Break (Option (Bool × List Nat) × List UInt8)
  | 0x65 :: rest => scanExponent.digits rest
  | 0x45 :: rest => scanExponent.digits rest
  | bs => pure (none, bs)

/-- The numeral behind its sign. -/
def scanUnsigned (negative : Bool) (bs : List UInt8) : Except Break (Numeral × List UInt8) := do
  let (whole, bs) ← wholeDigits bs
  let (fraction, bs) ← scanFraction bs
  let (exponent, bs) ← scanExponent bs
  pure (⟨negative, whole, fraction, exponent⟩, bs)

/-- Whether there is a minus sign, and what follows it. -/
def takeSign : List UInt8 → Bool × List UInt8
  | 0x2D :: rest => (true, rest)
  | bs => (false, bs)

/-- A numeral is read part by part. -/
theorem scanNumber_eq (bs : List UInt8) :
    scanNumber bs = scanUnsigned (takeSign bs).1 (takeSign bs).2 := by
  refine congrArg (Except.bind (wholeDigits (takeSign bs).2)) (funext fun ⟨whole, bs'⟩ => ?_)
  -- what is done with a part is done in each branch of the match that reads it
  have hfraction : ∀ {α} (f : List Nat × List UInt8 → Except Break α), (match bs' with
      | 0x2E :: rest => someDigits rest >>= f
      | bs => pure ([], bs) >>= f) = scanFraction bs' >>= f := fun f => by
    unfold scanFraction
    split <;> rfl
  refine (hfraction _).trans (congrArg (scanFraction bs' >>= ·) (funext fun ⟨fraction, bs''⟩ => ?_))
  have hexponent : ∀ {α} (f : Option (Bool × List Nat) × List UInt8 → Except Break α),
      (match bs'' with
      | 0x65 :: rest => scanExponent.digits rest >>= f
      | 0x45 :: rest => scanExponent.digits rest >>= f
      | bs => pure (none, bs) >>= f) = scanExponent bs'' >>= f := fun f => by
    unfold scanExponent
    split <;> rfl
  exact hexponent _

theorem takeSign_sign (negative : Bool) (h : bs.head? ≠ some 0x2D) :
    takeSign ((if negative then [0x2D] else []) ++ bs) = (negative, bs) := by
  cases negative with
  | true => rfl
  | false =>
    refine takeSign.eq_2 bs fun rest heq => h ?_
    rw [heq]
    rfl

theorem of_takeSign {negative : Bool} (h : takeSign bs = (negative, rest)) :
    bs = (if negative then [0x2D] else []) ++ rest := by
  unfold takeSign at h
  split at h <;> cases h <;> rfl

theorem scanFraction_fraction {fraction : List UInt8} (h : Fraction ds fraction)
    (hrest : EndsDigits rest) (hpoint : rest.head? ≠ some 0x2E) :
    scanFraction (fraction ++ rest) = .ok (ds, rest) := by
  cases h with
  | absent =>
    refine scanFraction.eq_2 rest fun rest' heq => hpoint ?_
    rw [heq]
    rfl
  | digits hds => exact someDigits_digits hds hrest

theorem of_scanFraction (h : scanFraction bs = .ok (ds, rest)) :
    ∃ fraction, Fraction ds fraction ∧ bs = fraction ++ rest := by
  unfold scanFraction at h
  split at h
  · obtain ⟨hds, rfl⟩ := of_someDigits h
    exact ⟨_, .digits hds, rfl⟩
  · cases h
    exact ⟨_, .absent, rfl⟩

/-- Digits begin with one. -/
theorem isDigit_of_head?_digitBytes (hds : Digits ds) (h : (digitBytes ds ++ rest).head? = some b) :
    isDigit b := by
  obtain ⟨d, ds, rfl⟩ := List.exists_cons_of_ne_nil hds.1
  have hd := hds.2 d List.mem_cons_self
  obtain rfl := Option.some.inj h
  rw [isDigit_iff, toNat_digit hd]
  omega

theorem head?_digitBytes_ne (hds : Digits ds) (hb : isDigit b = false) :
    (digitBytes ds ++ rest).head? ≠ some b := fun h => by
  rw [isDigit_of_head?_digitBytes hds h] at hb
  cases hb

theorem digits_unsigned (hds : Digits ds) (hrest : EndsDigits rest) :
    scanExponent.digits (digitBytes ds ++ rest) = .ok (some (false, ds), rest) := by
  rw [scanExponent.digits, someDigits_digits hds hrest]
  · rfl
  · exact fun rest' heq => head?_digitBytes_ne hds (b := 0x2B) rfl (congrArg List.head? heq)
  · exact fun rest' heq => head?_digitBytes_ne hds (b := 0x2D) rfl (congrArg List.head? heq)

theorem scanExponent_exponent {x : Option (Bool × List Nat)} {exponent : List UInt8}
    (h : Exponent x exponent) (hrest : EndsNumber rest) :
    scanExponent (exponent ++ rest) = .ok (x, rest) := by
  have hletter : ∀ {e bs}, e = 0x65 ∨ e = 0x45 →
      scanExponent (e :: bs ++ rest) = scanExponent.digits (bs ++ rest) := by
    rintro e bs (rfl | rfl) <;> rfl
  cases h with
  | absent =>
    -- what follows a number does not begin with the letter of an exponent
    refine scanExponent.eq_3 rest (fun rest' heq => ?_) fun rest' heq => ?_
    · exact (hrest 0x65 (heq ▸ rfl)).2.2.1 rfl
    · exact (hrest 0x45 (heq ▸ rfl)).2.2.2 rfl
  | unsigned he hds => rw [hletter he, digits_unsigned hds hrest.endsDigits]
  | positive he hds =>
    rw [hletter he, List.cons_append, scanExponent.digits,
      someDigits_digits hds hrest.endsDigits]
    rfl
  | negative he hds =>
    rw [hletter he, List.cons_append, scanExponent.digits,
      someDigits_digits hds hrest.endsDigits]
    rfl

theorem of_scanExponent {x : Option (Bool × List Nat)} (h : scanExponent bs = .ok (x, rest)) :
    ∃ exponent, Exponent x exponent ∧ bs = exponent ++ rest := by
  -- behind the letter, whichever it was, come a sign or none and digits
  have hdigits : ∀ {e bs}, e = 0x65 ∨ e = 0x45 → scanExponent.digits bs = .ok (x, rest) →
      ∃ exponent, Exponent x exponent ∧ e :: bs = exponent ++ rest := fun {e bs} he h => by
    unfold scanExponent.digits at h
    split at h
    next below behind hsign =>
    cases hsome : someDigits behind with
    | error _ =>
      rw [hsome] at h
      cases h
    | ok found =>
      obtain ⟨hds, rfl⟩ := of_someDigits hsome
      rw [hsome] at h
      cases h
      split at hsign <;> cases hsign
      · exact ⟨_, .positive he hds, rfl⟩
      · exact ⟨_, .negative he hds, rfl⟩
      · exact ⟨_, .unsigned he hds, rfl⟩
  unfold scanExponent at h
  split at h
  · exact hdigits (.inl rfl) h
  · exact hdigits (.inr rfl) h
  · cases h
    exact ⟨_, .absent, rfl⟩

/-! ### Numerals -/

/-- **A numeral is read from its spelling.** -/
theorem scanNumber_spelling {n : Numeral} (h : n.Spelling bs) (hrest : EndsNumber rest) :
    scanNumber (bs ++ rest) = .ok (n, rest) := by
  obtain ⟨negative, whole, fraction, exponent⟩ := n
  obtain ⟨hwhole, fractionBytes, exponentBytes, hfraction, hexponent, rfl⟩ := h
  dsimp only at hwhole hfraction hexponent ⊢
  -- each part ends where the next one begins, since that is no digit
  have hbehindFraction : EndsDigits (exponentBytes ++ rest) ∧
      (exponentBytes ++ rest).head? ≠ some 0x2E := by
    cases hexponent with
    | absent => exact ⟨hrest.endsDigits, fun h => (hrest _ h).2.1 rfl⟩
    | unsigned he | positive he | negative he =>
      rcases he with rfl | rfl
      all_goals exact ⟨fun b hb => by cases hb; rfl, nofun⟩
  have hbehindWhole : EndsDigits (fractionBytes ++ (exponentBytes ++ rest)) := by
    cases hfraction with
    | absent => exact hbehindFraction.1
    | digits => exact fun b hb => by cases hb; rfl
  simp only [List.append_assoc]
  rw [scanNumber_eq, takeSign_sign negative (head?_digitBytes_ne hwhole.1 rfl), scanUnsigned,
    wholeDigits_digits hwhole hbehindWhole]
  simp only [bind, Except.bind, scanFraction_fraction hfraction hbehindFraction.1 hbehindFraction.2,
    scanExponent_exponent hexponent hrest]
  rfl

/-- **What is taken for a numeral is one.** -/
theorem spelling_of_scanNumber {n : Numeral} (h : scanNumber bs = .ok (n, rest)) :
    ∃ text, n.Spelling text ∧ bs = text ++ rest := by
  rw [scanNumber_eq, scanUnsigned] at h
  have hsign := of_takeSign (Prod.eta (takeSign bs)).symm
  cases hwhole : wholeDigits (takeSign bs).2 with
  | error e => simp [hwhole, bind, Except.bind] at h
  | ok found =>
    obtain ⟨whole, behindWhole⟩ := found
    obtain ⟨hds, hbytes⟩ := of_wholeDigits hwhole
    simp only [hwhole, bind, Except.bind] at h
    cases hfraction : scanFraction behindWhole with
    | error e => simp [hfraction] at h
    | ok found =>
      obtain ⟨fraction, behindFraction⟩ := found
      obtain ⟨fractionBytes, hfractionBytes, rfl⟩ := of_scanFraction hfraction
      simp only [hfraction] at h
      cases hexponent : scanExponent behindFraction with
      | error e => simp [hexponent] at h
      | ok found =>
        obtain ⟨exponent, behind⟩ := found
        obtain ⟨exponentBytes, hexponentBytes, rfl⟩ := of_scanExponent hexponent
        simp only [hexponent] at h
        cases h
        refine ⟨_, ⟨hds, _, _, hfractionBytes, hexponentBytes, rfl⟩, hsign.trans ?_⟩
        rw [hbytes]
        simp only [List.append_assoc]

end Draft

/-! ### What is written of an integer -/

namespace Numeral

/-- The number that digits stand for. -/
def valueOf (s : Nat) (ds : List Nat) : Nat := ds.foldl (fun s d => s * 10 + d) s

theorem le_valueOf (s : Nat) (ds : List Nat) : s ≤ valueOf s ds := by
  induction ds generalizing s with
  | nil => exact Nat.le_refl s
  | cons d ds ih => exact Nat.le_trans (by omega) (ih (s * 10 + d))

/-- Digits that stand for no more than 64 bits are all taken. -/
theorem takeWhole_eq {s : Nat} {ds : List Nat} (h : valueOf s ds ≤ maxWord) :
    takeWhole s ds = (valueOf s ds, 0) := by
  induction ds generalizing s with
  | nil => rfl
  | cons d ds ih =>
    rw [takeWhole, if_pos (Nat.le_trans (le_valueOf _ ds) h)]
    exact ih h

theorem encode_digitChar {d : Nat} (h : d < 10) :
    String.utf8EncodeChar (Nat.digitChar d) = [UInt8.ofNat (0x30 + d)] := by
  have hall : ∀ d : Fin 10, String.utf8EncodeChar (Nat.digitChar d) = [UInt8.ofNat (0x30 + d)] := by
    decide
  exact hall ⟨d, h⟩

/-- The decimal digits of a number, the last one behind those of the tenth part. -/
theorem exists_digits (n : Nat) : ∃ ds, Whole ds ∧
    Utf8.encode (Nat.toDigits 10 n) = digitBytes ds ∧ valueOf 0 ds = n := by
  induction n using Nat.strongRecOn with
  | ind n ih =>
    rw [Nat.toDigits_eq_if (by decide)]
    split
    · next hn =>
      refine ⟨[n], ⟨⟨List.cons_ne_nil _ _, by simpa using hn⟩, fun h => ?_⟩, ?_, ?_⟩
      · rw [Option.some.inj h]
      · rw [Utf8.encode_cons, encode_digitChar hn]
        rfl
      · simp [valueOf]
    · next hn =>
      obtain ⟨ds, ⟨hds, hzero⟩, hbytes, hvalue⟩ := ih (n / 10) (by omega)
      have hlast : n % 10 < 10 := Nat.mod_lt n (by decide)
      refine ⟨ds ++ [n % 10], ⟨⟨by simp, fun d hd => ?_⟩, fun hhead => ?_⟩, ?_, ?_⟩
      · rcases List.mem_append.1 hd with hd | hd
        · exact hds.2 d hd
        · rwa [List.mem_singleton.1 hd]
      · -- the tenth part is not zero, so its digits do not begin with one
        rw [List.head?_append_of_ne_nil _ hds.1] at hhead
        rw [hzero hhead] at hvalue
        simp only [valueOf, List.foldl_cons, List.foldl_nil] at hvalue
        omega
      · rw [Utf8.encode_append, hbytes, Utf8.encode_cons, encode_digitChar hlast]
        simp [digitBytes, Utf8.encode]
      · rw [valueOf] at hvalue ⊢
        rw [List.foldl_append, hvalue]
        simp only [List.foldl_cons, List.foldl_nil]
        omega

end Numeral

/-- **An integer of at most 64 bits is read from its text.** -/
theorem Number.exists_numeral {n : Int} (hlow : -0x8000000000000000 ≤ n)
    (hhigh : n ≤ 0xFFFFFFFFFFFFFFFF) :
    ∃ numeral : Numeral, numeral.Spelling (Utf8.ofString (Number.int n).text) ∧
      numeral.value? = some (.int n) := by
  obtain ⟨ds, hwhole, hbytes, hvalue⟩ := Numeral.exists_digits n.natAbs
  -- the digits fit the word, so none of them is cut off
  have htake : Numeral.takeWhole 0 ds = (n.natAbs, 0) := by
    rw [Numeral.takeWhole_eq, hvalue]
    rw [hvalue, Numeral.maxWord]
    omega
  have hdecimal : ∀ m, (toString m).toList = Nat.toDigits 10 m := fun m => by
    rw [Nat.toString_eq_ofList_toDigits, String.toList_ofList]
  refine ⟨⟨decide (n < 0), ds, [], none⟩, ⟨hwhole, [], [], .absent, .absent, ?_⟩, ?_⟩
  · rw [List.append_nil, List.append_nil, ← hbytes]
    cases n with
    | ofNat m =>
      change Utf8.encode (toString m).toList = _
      rw [hdecimal]
      rfl
    | negSucc m =>
      change Utf8.encode ("-" ++ toString (m + 1)).toList = _
      have hminus : Utf8.encode "-".toList = [0x2D] := by decide
      rw [String.toList_append, hdecimal, Utf8.encode_append, hminus,
        if_pos (decide_eq_true (Int.negSucc_lt_zero m))]
      rfl
  · simp only [Numeral.value?, htake, List.isEmpty_nil, Option.isNone_none, Bool.and_self,
      decide_true, if_true]
    rcases Int.lt_or_le n 0 with hn | hn
    · have hbounds : 0 < n.natAbs ∧ n.natAbs ≤ 0x8000000000000000 := by omega
      have habs : -(n.natAbs : Int) = n := by omega
      simp only [decide_eq_true hn, Bool.not_true, Bool.false_eq_true, if_false, if_pos hbounds,
        habs]
    · have habs : (n.natAbs : Int) = n := by omega
      simp only [decide_eq_false (Int.not_lt.2 hn), Bool.not_false, if_true, habs]

end ModelKeeper
