import Mathlib.Data.List.Forall2
import ModelKeeper.Proofs.Json.Numerals
import ModelKeeper.Proofs.Json.Strings

/-!
# Texts of JSON

The well-formed texts of JSON (`Json.WellFormed`) are given by a grammar on bytes, in which numbers
may be too large and strings need not spell a text.

A draft is read from a text (`Draft.Reads`) if the reader takes it from this text whatever follows,
and stops behind it.  Arrays and objects are read item by item: how their readers go on behind a
comma and stop at the bracket is said once for both (`Draft.ReadsSeries`), so that an array is read
from the texts of its items (`Draft.reads_array`) and an object from its members
(`Draft.reads_object`).  It follows that every well-formed text is read (`Draft.exists_reads`).

The fuel that a text needs is twice its length: a value takes one unit more than the items in it,
and a comma or a bracket gives two.
-/

namespace ModelKeeper

namespace Json

/-! ### Well-formed texts -/

/-- Whether bytes are blanks. -/
def Blank (bs : List UInt8) : Prop := ∀ b ∈ bs, b = 0x20 ∨ b = 0x09 ∨ b = 0x0A ∨ b = 0x0D

/-- Texts behind a comma each, and what closes their list. -/
def further (close : UInt8) : List (List UInt8) → List UInt8
  | [] => [close]
  | text :: texts => 0x2C :: (text ++ further close texts)

/-- Texts with commas between them, and what closes their list. -/
def listed (close : UInt8) : List (List UInt8) → List UInt8
  | [] => [close]
  | text :: texts => text ++ further close texts

/-- A member of an object in a text. -/
structure Member where
  /-- The blanks before the name. -/
  before : List UInt8
  /-- The letters of the name. -/
  letters : List UInt8
  /-- The blanks before the colon. -/
  behind : List UInt8
  /-- The text of the value. -/
  value : List UInt8

namespace Member

def text (m : Member) : List UInt8 :=
  m.before ++ 0x22 :: (m.letters ++ 0x22 :: (m.behind ++ 0x3A :: m.value))

/-- Whether all but the value is in order. -/
def Named (m : Member) : Prop := Blank m.before ∧ Letters m.letters ∧ Blank m.behind

theorem text_append (m : Member) (rest : List UInt8) :
    m.text ++ rest =
      m.before ++ 0x22 :: (m.letters ++ 0x22 :: (m.behind ++ 0x3A :: (m.value ++ rest))) := by
  simp only [text, List.append_assoc, List.cons_append]

theorem length_value_le (m : Member) : m.value.length ≤ m.text.length := by
  simp only [text, List.length_append, List.length_cons]
  omega

end Member

/-- Whether bytes are a text of JSON: one value, perhaps with blanks around it.  Numbers may be too
large, and strings need not spell a text. -/
inductive WellFormed : List UInt8 → Prop
  | word {word} : word ∈ ["null", "true", "false"] → WellFormed (Utf8.ofString word)
  | numeral {n : Numeral} {bs} : n.Spelling bs → WellFormed bs
  | string {letters} : Letters letters → WellFormed (0x22 :: (letters ++ [0x22]))
  | array {blanks items} : Blank blanks → (∀ item ∈ items, WellFormed item) →
    WellFormed (0x5B :: (blanks ++ listed 0x5D items))
  | object {blanks} {members : List Member} : Blank blanks →
    (∀ m ∈ members, m.Named) → (∀ m ∈ members, WellFormed m.value) →
    WellFormed (0x7B :: (blanks ++ listed 0x7D (members.map Member.text)))
  | padded {before bs behind} : Blank before → WellFormed bs → Blank behind →
    WellFormed (before ++ (bs ++ behind))

end Json

namespace Draft

open Json

variable {fuel : Nat} {first : Bool} {bs bs' rest rest' : List UInt8} {d : Draft}

/-! ### Blanks -/

theorem skipBlanks_cons {b : UInt8} (h : b = 0x20 ∨ b = 0x09 ∨ b = 0x0A ∨ b = 0x0D) :
    skipBlanks (b :: rest) = skipBlanks rest := by
  rw [skipBlanks, if_pos h]

theorem skipBlanks_append (h : Blank bs) : skipBlanks (bs ++ rest) = skipBlanks rest := by
  induction bs with
  | nil => rfl
  | cons b bs ih =>
    rw [List.cons_append, skipBlanks_cons (h b List.mem_cons_self)]
    exact ih fun b' hb' => h b' (List.mem_cons_of_mem _ hb')

/-- What is dropped are blanks. -/
theorem exists_skipBlanks (bs : List UInt8) :
    ∃ blanks, Blank blanks ∧ bs = blanks ++ skipBlanks bs := by
  induction bs with
  | nil => exact ⟨[], nofun, rfl⟩
  | cons b bs ih =>
    obtain ⟨blanks, hblanks, hbs⟩ := ih
    by_cases hb : b = 0x20 ∨ b = 0x09 ∨ b = 0x0A ∨ b = 0x0D
    · refine ⟨b :: blanks, List.forall_mem_cons.2 ⟨hb, hblanks⟩, ?_⟩
      rw [skipBlanks_cons hb, List.cons_append, ← hbs]
    · refine ⟨[], nofun, ?_⟩
      rw [skipBlanks, if_neg hb]
      rfl

theorem skipBlanks_skipBlanks (bs : List UInt8) : skipBlanks (skipBlanks bs) = skipBlanks bs := by
  obtain ⟨blanks, hblanks, hbs⟩ := exists_skipBlanks bs
  conv_rhs => rw [hbs, skipBlanks_append hblanks]

theorem EndsNumber.append (h : Blank bs) (hrest : EndsNumber rest) : EndsNumber (bs ++ rest) := by
  cases bs with
  | nil => exact hrest
  | cons b bs =>
    intro b' hb'
    obtain rfl := Option.some.inj hb'
    rcases h b List.mem_cons_self with rfl | rfl | rfl | rfl <;> decide

/-! ### The reader behind blanks -/

theorem value_congr (h : skipBlanks bs = skipBlanks bs') :
    ofBytes.value fuel bs = ofBytes.value fuel bs' := by
  cases fuel with
  | zero => rfl
  | succ fuel => rw [ofBytes.value, ofBytes.value, h]

theorem items_congr (h : skipBlanks bs = skipBlanks bs') :
    ofBytes.items fuel first bs = ofBytes.items fuel first bs' := by
  cases fuel with
  | zero => rfl
  | succ fuel =>
    unfold ofBytes.items
    rw [h]

theorem members_congr (h : skipBlanks bs = skipBlanks bs') :
    ofBytes.members fuel first bs = ofBytes.members fuel first bs' := by
  cases fuel with
  | zero => rfl
  | succ fuel =>
    unfold ofBytes.members
    rw [h]

/-! ### Reading a value from its text -/

/-- Whether a draft is read from a text, whatever follows. -/
def Reads (bs : List UInt8) (d : Draft) : Prop :=
  ∀ fuel rest, 2 * bs.length ≤ fuel → EndsNumber rest →
    ∃ rest', ofBytes.value fuel (bs ++ rest) = (d, some rest') ∧ skipBlanks rest' = skipBlanks rest

theorem Reads.padded {before behind : List UInt8} (hbefore : Blank before) (h : Reads bs d)
    (hbehind : Blank behind) : Reads (before ++ (bs ++ behind)) d := by
  intro fuel rest hfuel hrest
  simp only [List.length_append] at hfuel
  obtain ⟨rest', hvalue, hrest'⟩ := h fuel (behind ++ rest) (by omega) (hrest.append hbehind)
  refine ⟨rest', ?_, hrest'.trans (skipBlanks_append hbehind)⟩
  rw [List.append_assoc, value_congr (skipBlanks_append hbefore), List.append_assoc, hvalue]

theorem expectWord_append (word : List UInt8) : expectWord word (word ++ rest) = .ok rest := by
  induction word with
  | nil => rfl
  | cons b word ih => rw [List.cons_append, expectWord, if_pos rfl, ih]

theorem literal_append (v : Draft) (word : String) :
    literal v word (Utf8.ofString word ++ rest) = (v, some rest) := by
  rw [literal, expectWord_append]

/-- A value that is read from its first byte on. -/
theorem Reads.of_value {b : UInt8} (h : ∀ fuel rest, 2 * bs.length + 1 ≤ fuel → EndsNumber rest →
    ofBytes.value (fuel + 1) (b :: (bs ++ rest)) = (d, some rest)) : Reads (b :: bs) d := by
  intro fuel rest hfuel hrest
  simp only [List.length_cons] at hfuel
  obtain ⟨fuel, rfl⟩ := Nat.exists_eq_add_of_le' (show 1 ≤ fuel by omega)
  exact ⟨rest, h fuel rest (by omega) hrest, rfl⟩

theorem reads_null : Reads (Utf8.ofString "null") .null :=
  .of_value fun _ _ _ _ => literal_append .null "ull"

theorem reads_bool (b : Bool) :
    Reads (Utf8.ofString (if b then "true" else "false")) (.bool b) := by
  cases b with
  | true => exact .of_value fun _ _ _ _ => literal_append (.bool true) "rue"
  | false => exact .of_value fun _ _ _ _ => literal_append (.bool false) "alse"

theorem value_quote {s : Option String} (h : scanString [] false bs = .closed s rest) :
    ofBytes.value (fuel + 1) (0x22 :: bs) = (.text s, some rest) := by
  have hquote : skipBlanks (0x22 :: bs) = 0x22 :: bs := rfl
  simp only [ofBytes.value, hquote, h]

theorem reads_string {letters : List UInt8} {cs : List Char} (h : Spelling letters cs) :
    Reads (0x22 :: (letters ++ [0x22])) (.text (some (String.ofList cs))) :=
  .of_value fun fuel rest _ _ => by
    rw [List.append_assoc]
    exact value_quote (scanString_closed h)

/-- A string is read, whether it spells a text or not. -/
theorem exists_reads_letters {letters : List UInt8} (h : Letters letters) :
    ∃ s, Reads (0x22 :: (letters ++ [0x22])) (.text s) := by
  obtain ⟨s, hs⟩ := scanString_letters h [] false
  refine ⟨s, .of_value fun fuel rest _ _ => ?_⟩
  rw [List.append_assoc]
  exact value_quote (hs rest)

theorem exists_cons_of_spelling {n : Numeral} (h : n.Spelling bs) :
    ∃ b tail, bs = b :: tail ∧ (b = 0x2D ∨ isDigit b) := by
  obtain ⟨hwhole, fraction, exponent, -, -, rfl⟩ := h
  obtain ⟨b, digits, hdigits⟩ : ∃ b digits, Numeral.digitBytes n.whole = b :: digits :=
    List.exists_cons_of_ne_nil (by simpa [Numeral.digitBytes] using hwhole.1.1)
  cases n.negative with
  | true => exact ⟨_, _, rfl, .inl rfl⟩
  | false =>
    refine ⟨b, digits ++ fraction ++ exponent, by rw [hdigits]; rfl, .inr ?_⟩
    have hhead : (Numeral.digitBytes n.whole ++ []).head? = some b := by
      rw [hdigits]
      rfl
    exact isDigit_of_head?_digitBytes hwhole.1 hhead

/-- A number is told from all other values by its first byte. -/
theorem value_number {b : UInt8} (hb : b = 0x2D ∨ isDigit b) {n : Numeral}
    (h : scanNumber (b :: bs) = .ok (n, rest)) :
    ofBytes.value (fuel + 1) (b :: bs) = (.number n.value?, some rest) := by
  -- neither a digit nor a minus is a blank
  have hblank : skipBlanks (b :: bs) = b :: bs := by
    rw [skipBlanks, if_neg]
    rintro (rfl | rfl | rfl | rfl) <;> revert hb <;> decide
  unfold ofBytes.value
  rw [hblank]
  split
  case h_8 heq =>
    cases heq
    rw [if_pos hb, h]
  case h_1 heq => cases heq
  all_goals
    next heq =>
    cases heq
    exact absurd hb (by decide)

theorem reads_numeral {n : Numeral} (h : n.Spelling bs) : Reads bs (.number n.value?) := by
  obtain ⟨b, tail, rfl, hb⟩ := exists_cons_of_spelling h
  exact .of_value fun fuel rest _ hrest => value_number hb (scanNumber_spelling h hrest)

/-- A whole text is read to its end. -/
theorem ofBytes_of_reads {bs : List UInt8} {d : Draft} (h : Reads bs d) :
    ∃ rest, ofBytes bs = (d, some rest) ∧ skipBlanks rest = [] := by
  obtain ⟨rest, hvalue, hrest⟩ := h (2 * bs.length + 2) [] (by omega) nofun
  rw [List.append_nil] at hvalue
  exact ⟨rest, hvalue, hrest⟩

/-! ### Lists in brackets -/

theorem endsNumber_further {close : UInt8} (h : close = 0x5D ∨ close = 0x7D)
    (texts : List (List UInt8)) (rest : List UInt8) : EndsNumber (further close texts ++ rest) := by
  intro b hb
  cases texts with
  | nil =>
    obtain rfl := Option.some.inj hb
    rcases h with rfl | rfl <;> decide
  | cons text texts =>
    obtain rfl := Option.some.inj hb
    decide

theorem length_further (close : UInt8) (texts : List (List UInt8)) :
    1 ≤ (further close texts).length := by
  cases texts <;> exact Nat.succ_pos _

/-- Whether a function with fuel reads texts up to a closing bracket: the first one, those behind a
comma, and the bracket. -/
structure ReadsSeries {α : Type} (close : UInt8)
    (run : Nat → Bool → List UInt8 → List α × Option Break × Option (List UInt8))
    (reads : List UInt8 → α → Prop) : Prop where
  bracket : close = 0x5D ∨ close = 0x7D
  closed : ∀ fuel first rest, run (fuel + 1) first (close :: rest) = ([], none, some rest)
  first : ∀ {fuel text a rest as stop behind}, reads text a → 2 * text.length ≤ fuel →
    EndsNumber rest → run fuel false rest = (as, stop, behind) →
      run (fuel + 1) true (text ++ rest) = (a :: as, stop, behind)
  further : ∀ {fuel text a rest as stop behind}, reads text a → 2 * text.length ≤ fuel →
    EndsNumber rest → run fuel false rest = (as, stop, behind) →
      run (fuel + 1) false (0x2C :: (text ++ rest)) = (a :: as, stop, behind)

namespace ReadsSeries

variable {α : Type} {close : UInt8}
  {run : Nat → Bool → List UInt8 → List α × Option Break × Option (List UInt8)}
  {reads : List UInt8 → α → Prop} {texts : List (List UInt8)} {as : List α}

/-- What stands behind the first text is read up to the bracket. -/
theorem run_further (h : ReadsSeries close run reads) (htexts : List.Forall₂ reads texts as)
    (rest : List UInt8) : ∀ fuel, 2 * (Json.further close texts).length ≤ fuel + 1 →
      run fuel false (Json.further close texts ++ rest) = (as, none, some rest) := by
  induction htexts with
  | nil =>
    intro fuel hfuel
    simp only [Json.further, List.length_singleton] at hfuel
    obtain ⟨fuel, rfl⟩ := Nat.exists_eq_add_of_le' (show 1 ≤ fuel by omega)
    exact h.closed fuel false rest
  | @cons text a texts as hfirst hothers ih =>
    intro fuel hfuel
    have hbracket := length_further close texts
    simp only [Json.further, List.length_cons, List.length_append] at hfuel
    obtain ⟨fuel, rfl⟩ := Nat.exists_eq_add_of_le' (show 1 ≤ fuel by omega)
    -- the bracket or comma behind the item ends it, even if it is a number
    rw [Json.further, List.cons_append, List.append_assoc]
    exact h.further hfirst (by omega) (endsNumber_further h.bracket texts rest) (ih fuel (by omega))

theorem run_listed (h : ReadsSeries close run reads) (htexts : List.Forall₂ reads texts as)
    {fuel : Nat} (hfuel : 2 * (listed close texts).length ≤ fuel) (rest : List UInt8) :
    run fuel true (listed close texts ++ rest) = (as, none, some rest) := by
  cases htexts with
  | nil =>
    simp only [listed, List.length_singleton] at hfuel
    obtain ⟨fuel, rfl⟩ := Nat.exists_eq_add_of_le' (show 1 ≤ fuel by omega)
    exact h.closed fuel true rest
  | @cons text a texts as hfirst hothers =>
    have hbracket := length_further close texts
    simp only [listed, List.length_append] at hfuel
    obtain ⟨fuel, rfl⟩ := Nat.exists_eq_add_of_le' (show 1 ≤ fuel by omega)
    rw [listed, List.append_assoc]
    exact h.first hfirst (by omega) (endsNumber_further h.bracket texts rest)
      (h.run_further hothers rest fuel (by omega))

end ReadsSeries

/-! ### Arrays -/

/-- A value does not begin like the end of an array. -/
theorem exists_skipBlanks_of_value (h : ofBytes.value fuel bs = (d, some rest)) :
    ∃ b tail, skipBlanks bs = b :: tail ∧ b ≠ 0x5D := by
  cases fuel with
  | zero => cases h
  | succ fuel =>
    cases hbs : skipBlanks bs with
    | nil =>
      rw [ofBytes.value, hbs] at h
      cases h
    | cons b tail =>
      refine ⟨b, tail, rfl, ?_⟩
      rintro rfl
      rw [ofBytes.value, hbs] at h
      cases h

section

variable {ds : List Draft} {stop : Option Break} {behind : Option (List UInt8)}

theorem items_first (h : ofBytes.value fuel bs = (d, some rest))
    (hrest : ofBytes.items fuel false rest = (ds, stop, behind)) :
    ofBytes.items (fuel + 1) true bs = (d :: ds, stop, behind) := by
  obtain ⟨b, tail, hbs, hb⟩ := exists_skipBlanks_of_value h
  rw [← value_congr (skipBlanks_skipBlanks bs), hbs] at h
  unfold ofBytes.items
  rw [hbs]
  split
  case h_2 heq =>
    cases heq
    exact absurd rfl hb
  case h_3 => simp only [h, hrest]
  all_goals contradiction

theorem items_further (h : ofBytes.value fuel bs = (d, some rest))
    (hrest : ofBytes.items fuel false rest = (ds, stop, behind)) :
    ofBytes.items (fuel + 1) false (0x2C :: bs) = (d :: ds, stop, behind) := by
  obtain ⟨b, tail, hbs, hb⟩ := exists_skipBlanks_of_value h
  rw [← value_congr (skipBlanks_skipBlanks bs), hbs] at h
  have hcomma : skipBlanks (0x2C :: bs) = 0x2C :: bs := rfl
  unfold ofBytes.items
  rw [hcomma]
  simp only [hbs]
  split
  · next heq =>
    cases heq
    exact absurd rfl hb
  · simp only [h, hrest]

end

theorem readsSeries_items : ReadsSeries 0x5D ofBytes.items Reads where
  bracket := .inl rfl
  closed fuel first rest := by cases first <;> rfl
  first h hfuel hends hothers := by
    obtain ⟨rest', hvalue, hrest'⟩ := h _ _ hfuel hends
    exact items_first hvalue ((items_congr hrest').trans hothers)
  further h hfuel hends hothers := by
    obtain ⟨rest', hvalue, hrest'⟩ := h _ _ hfuel hends
    exact items_further hvalue ((items_congr hrest').trans hothers)

theorem value_array {ds : List Draft} {stop : Option Break} {behind : Option (List UInt8)}
    (h : ofBytes.items fuel true bs = (ds, stop, behind)) :
    ofBytes.value (fuel + 1) (0x5B :: bs) = (.array ds stop, behind) := by
  have hbracket : skipBlanks (0x5B :: bs) = 0x5B :: bs := rfl
  simp only [ofBytes.value, hbracket, h]

/-- **An array is read from the texts of its items.** -/
theorem reads_array {blanks : List UInt8} {texts : List (List UInt8)} {ds : List Draft}
    (hblanks : Blank blanks) (h : List.Forall₂ Reads texts ds) :
    Reads (0x5B :: (blanks ++ listed 0x5D texts)) (.array ds none) :=
  .of_value fun fuel rest hfuel _ => by
    have hitems : ofBytes.items fuel true (blanks ++ listed 0x5D texts ++ rest) =
        (ds, none, some rest) := by
      rw [List.append_assoc, items_congr (skipBlanks_append hblanks)]
      simp only [List.length_append] at hfuel
      exact readsSeries_items.run_listed h (by omega) rest
    exact value_array hitems

/-! ### Objects -/

/-- Whether a name and a draft are read from the text of a member, whatever follows. -/
structure ReadsMember (m : Member) (member : Option String × Draft) : Prop where
  before : Blank m.before
  behind : Blank m.behind
  name : ∀ rest, scanString [] false (m.letters ++ 0x22 :: rest) = .closed member.1 rest
  value : Reads m.value member.2

section

variable {m : Member} {member : Option String × Draft} {ms : List Member}
  {members : List (Option String × Draft)} {stop : Option Break} {behind : Option (List UInt8)}

theorem ReadsMember.skipBlanks_colon (h : ReadsMember m member) (rest : List UInt8) :
    skipBlanks (m.behind ++ 0x3A :: rest) = 0x3A :: rest :=
  skipBlanks_append h.behind

theorem members_first (h : ReadsMember m member)
    (hvalue : ofBytes.value fuel (m.value ++ rest) = (member.2, some rest'))
    (hrest : ofBytes.members fuel false rest' = (members, stop, behind)) :
    ofBytes.members (fuel + 1) true (m.text ++ rest) = (member :: members, stop, behind) := by
  have hquote : ∀ bs, skipBlanks (0x22 :: bs) = 0x22 :: bs := fun bs => rfl
  rw [Member.text_append, members_congr (skipBlanks_append h.before)]
  unfold ofBytes.members
  simp only [hquote, h.name, h.skipBlanks_colon, hvalue, hrest]

theorem members_further (h : ReadsMember m member)
    (hvalue : ofBytes.value fuel (m.value ++ rest) = (member.2, some rest'))
    (hrest : ofBytes.members fuel false rest' = (members, stop, behind)) :
    ofBytes.members (fuel + 1) false (0x2C :: (m.text ++ rest)) =
      (member :: members, stop, behind) := by
  have hcomma : ∀ bs, skipBlanks (0x2C :: bs) = 0x2C :: bs := fun bs => rfl
  have hquote : skipBlanks (m.text ++ rest) =
      0x22 :: (m.letters ++ 0x22 :: (m.behind ++ 0x3A :: (m.value ++ rest))) := by
    rw [Member.text_append, skipBlanks_append h.before]
    rfl
  unfold ofBytes.members
  simp only [hcomma, hquote, h.name, h.skipBlanks_colon, hvalue, hrest]

theorem readsSeries_members : ReadsSeries 0x7D ofBytes.members
    fun text member => ∃ m, ReadsMember m member ∧ m.text = text where
  bracket := .inr rfl
  closed fuel first rest := by cases first <;> rfl
  first h hfuel hends hothers := by
    obtain ⟨m, hm, rfl⟩ := h
    obtain ⟨rest', hvalue, hrest'⟩ := hm.value _ _
      (Nat.le_trans (Nat.mul_le_mul_left 2 m.length_value_le) hfuel) hends
    exact members_first hm hvalue ((members_congr hrest').trans hothers)
  further h hfuel hends hothers := by
    obtain ⟨m, hm, rfl⟩ := h
    obtain ⟨rest', hvalue, hrest'⟩ := hm.value _ _
      (Nat.le_trans (Nat.mul_le_mul_left 2 m.length_value_le) hfuel) hends
    exact members_further hm hvalue ((members_congr hrest').trans hothers)

theorem value_object (h : ofBytes.members fuel true bs = (members, stop, behind)) :
    ofBytes.value (fuel + 1) (0x7B :: bs) = (.object members stop, behind) := by
  have hbrace : skipBlanks (0x7B :: bs) = 0x7B :: bs := rfl
  simp only [ofBytes.value, hbrace, h]

/-- **An object is read from its members.** -/
theorem reads_object {blanks : List UInt8} (hblanks : Blank blanks)
    (h : List.Forall₂ ReadsMember ms members) :
    Reads (0x7B :: (blanks ++ listed 0x7D (ms.map Member.text))) (.object members none) :=
  .of_value fun fuel rest hfuel _ => by
    have hmembers : ofBytes.members fuel true
        (blanks ++ listed 0x7D (ms.map Member.text) ++ rest) = (members, none, some rest) := by
      rw [List.append_assoc, members_congr (skipBlanks_append hblanks)]
      simp only [List.length_append] at hfuel
      refine readsSeries_members.run_listed ?_ (by omega) rest
      exact List.forall₂_map_left_iff.2 (h.imp fun m member hm => ⟨m, hm, rfl⟩)
    exact value_object hmembers

end

/-! ### Well-formed texts are read -/

theorem skipItems_eq {ds : List Draft} (h : ∀ d ∈ ds, d.skip = .ok ()) : skipItems ds = .ok () := by
  induction ds with
  | nil => rfl
  | cons d ds ih =>
    rw [skipItems, h d List.mem_cons_self, ih fun d' hd' => h d' (List.mem_cons_of_mem _ hd')]
    rfl

theorem skipMembers_eq {members : List (Option String × Draft)}
    (h : ∀ member ∈ members, member.2.skip = .ok ()) : skipMembers members = .ok () := by
  induction members with
  | nil => rfl
  | cons member members ih =>
    rw [skipMembers, h member List.mem_cons_self,
      ih fun other hother => h other (List.mem_cons_of_mem _ hother)]
    rfl

/-- **Every well-formed text is read**, as a value that can be passed over. -/
theorem exists_reads (h : WellFormed bs) : ∃ d, Reads bs d ∧ d.skip = .ok () := by
  induction h with
  | word hword =>
    rcases List.mem_cons.1 hword with rfl | hword
    · exact ⟨_, reads_null, rfl⟩
    rcases List.mem_cons.1 hword with rfl | hword
    · exact ⟨_, reads_bool true, rfl⟩
    · rw [List.mem_singleton.1 hword]
      exact ⟨_, reads_bool false, rfl⟩
  | numeral hnumeral => exact ⟨_, reads_numeral hnumeral, rfl⟩
  | string hletters =>
    obtain ⟨s, hs⟩ := exists_reads_letters hletters
    exact ⟨_, hs, rfl⟩
  | @array blanks items hblanks _ ih =>
    -- a reading for each item
    choose! read hread using ih
    refine ⟨.array (items.map read) none, reads_array hblanks ?_, ?_⟩
    · refine List.forall₂_map_right_iff.2 (List.forall₂_same.2 fun item hitem => ?_)
      exact (hread item hitem).1
    · have hskip : skipItems (items.map read) = .ok () := skipItems_eq fun d hd => by
        obtain ⟨item, hitem, rfl⟩ := List.mem_map.1 hd
        exact (hread item hitem).2
      rw [skip, hskip]
      rfl
  | @object blanks members hblanks hnamed _ ih =>
    have hname : ∀ m ∈ members, ∃ name, ∀ rest,
        scanString [] false (m.letters ++ 0x22 :: rest) = .closed name rest :=
      fun m hm => scanString_letters (hnamed m hm).2.1 [] false
    choose! name hname using hname
    choose! read hread using ih
    refine ⟨.object (members.map fun m => (name m, read m)) none, reads_object hblanks ?_, ?_⟩
    · refine List.forall₂_map_right_iff.2 (List.forall₂_same.2 fun m hm => ?_)
      exact ⟨(hnamed m hm).1, (hnamed m hm).2.2, hname m hm, (hread m hm).1⟩
    · have hskip : skipMembers (members.map fun m => (name m, read m)) = .ok () :=
        skipMembers_eq fun member hmember => by
          obtain ⟨m, hm, rfl⟩ := List.mem_map.1 hmember
          exact (hread m hm).2
      rw [skip, hskip]
      rfl
  | padded hbefore _ hbehind ih =>
    obtain ⟨d, hread, hskip⟩ := ih
    exact ⟨d, hread.padded hbefore hbehind, hskip⟩

end Draft

end ModelKeeper
