import ModelKeeper.Proofs.Json.Texts
import ModelKeeper.Json.Codec

/-!
# Only well-formed texts are read

Where the reader finds the end of a value, it has come past a well-formed text
(`Draft.wellFormed_of_value`), and so the bytes that it reads to their end are the texts of JSON
(`Draft.wellFormed_iff`).  Whatever a codec wants of a value, it reads nothing from other bytes
(`Codec.wellFormed_of_readText`).
-/

namespace ModelKeeper

namespace Draft

open Json

variable {fuel : Nat} {bs rest : List UInt8} {d : Draft}

/-! ### Blanks around -/

theorem wellFormed_append {text blanks : List UInt8} (h : WellFormed text)
    (hblanks : Blank blanks) : WellFormed (text ++ blanks) :=
  .padded (List.forall_mem_nil _) h hblanks

theorem append_wellFormed {text blanks : List UInt8} (hblanks : Blank blanks)
    (h : WellFormed text) : WellFormed (blanks ++ text) := by
  have hpadded := WellFormed.padded hblanks h (List.forall_mem_nil _)
  rwa [List.append_nil] at hpadded

/-! ### Words -/

theorem of_expectWord {word : List UInt8} (h : expectWord word bs = .ok rest) :
    bs = word ++ rest := by
  fun_induction expectWord word bs with
  | case1 bs =>
    cases h
    rfl
  | case2 => cases h
  | case3 w word bs ih => rw [ih h, List.cons_append]
  | case4 => cases h

/-- A value that is told by its first letter. -/
theorem of_literal {v : Draft} {word : String} (h : literal v word bs = (d, some rest)) :
    bs = Utf8.ofString word ++ rest := by
  unfold literal at h
  split at h
  · next hexpect =>
    cases h
    exact of_expectWord hexpect
  · cases h

/-! ### Values -/

/-- What the reader of values has come past, if it has found the end of one. -/
def ValueSound (fuel : Nat) : Prop :=
  ∀ {bs d rest}, ofBytes.value fuel bs = (d, some rest) →
    ∃ text, WellFormed text ∧ bs = text ++ rest

/-- What the reader of items has come past, if it has found the bracket. -/
def ItemsSound (fuel : Nat) : Prop :=
  ∀ {first bs ds stop rest}, ofBytes.items fuel first bs = (ds, stop, some rest) →
    ∃ blanks texts, Blank blanks ∧ (∀ text ∈ texts, WellFormed text) ∧
      bs = blanks ++ ((if first then listed 0x5D texts else further 0x5D texts) ++ rest)

/-- What the reader of members has come past, if it has found the bracket. -/
def MembersSound (fuel : Nat) : Prop :=
  ∀ {first bs members stop rest}, ofBytes.members fuel first bs = (members, stop, some rest) →
    ∃ blanks, ∃ ms : List Member, Blank blanks ∧ (∀ m ∈ ms, m.Named) ∧
      (∀ m ∈ ms, WellFormed m.value) ∧
      bs = blanks ++ ((if first then listed 0x7D (ms.map Member.text)
        else further 0x7D (ms.map Member.text)) ++ rest)

theorem valueSound_succ (hitems : ItemsSound fuel) (hmembers : MembersSound fuel) :
    ValueSound (fuel + 1) := by
  intro bs d rest h
  obtain ⟨blanks, hblanks, hbs⟩ := exists_skipBlanks bs
  -- the blanks in front are put aside, so that each case is about the value itself
  suffices hvalue : ∃ text, WellFormed text ∧ skipBlanks bs = text ++ rest by
    obtain ⟨text, htext, heq⟩ := hvalue
    exact ⟨blanks ++ text, append_wellFormed hblanks htext, by rw [List.append_assoc, ← heq, ← hbs]⟩
  -- the three words are read alike
  have hword : ∀ {v : Draft} {letter word tail}, skipBlanks bs = letter :: tail →
      letter :: Utf8.ofString word ∈ ["null", "true", "false"].map Utf8.ofString →
      literal v word tail = (d, some rest) →
        ∃ text, WellFormed text ∧ skipBlanks bs = text ++ rest := fun heq hmem h => by
    obtain ⟨word', hword', hbytes⟩ := List.mem_map.1 hmem
    exact ⟨_, .word hword', by rw [heq, of_literal h, hbytes, List.cons_append]⟩
  unfold ofBytes.value at h
  split at h
  case h_1 => cases h
  case h_2 tail heq =>
    obtain ⟨ds, stop, behind, hread⟩ : ∃ ds stop behind,
      ofBytes.items fuel true tail = (ds, stop, behind) := ⟨_, _, _, rfl⟩
    rw [hread] at h
    cases h
    obtain ⟨blanks', texts, hblanks', htexts, rfl⟩ := hitems hread
    exact ⟨_, .array hblanks' htexts, by rw [heq, List.cons_append, List.append_assoc]; rfl⟩
  case h_3 tail heq =>
    obtain ⟨members, stop, behind, hread⟩ : ∃ members stop behind,
      ofBytes.members fuel true tail = (members, stop, behind) := ⟨_, _, _, rfl⟩
    rw [hread] at h
    cases h
    obtain ⟨blanks', ms, hblanks', hnamed, hvalues, rfl⟩ := hmembers hread
    refine ⟨_, .object hblanks' hnamed hvalues, ?_⟩
    rw [heq, List.cons_append, List.append_assoc]
    rfl
  case h_4 tail heq =>
    split at h
    · next hscan =>
      cases h
      obtain ⟨letters, hletters, rfl⟩ := letters_of_closed hscan
      exact ⟨_, .string hletters, by rw [heq, List.cons_append, List.append_assoc]; rfl⟩
    · cases h
  case h_5 heq => exact hword heq (by decide) h
  case h_6 heq => exact hword heq (by decide) h
  case h_7 heq => exact hword heq (by decide) h
  case h_8 b tail _ _ _ _ _ _ heq =>
    split at h
    · split at h
      · next hscan =>
        cases h
        obtain ⟨text, htext, hbytes⟩ := spelling_of_scanNumber hscan
        exact ⟨text, .numeral htext, heq.trans hbytes⟩
      · cases h
    · cases h

/-- An item and the blanks around it. -/
theorem item_sound (hvalue : ValueSound fuel) (hitems : ItemsSound fuel) {ds : List Draft}
    {stop : Option Break}
    (h : (match ofBytes.value fuel bs with
      | (v, none) => ([v], none, none)
      | (v, some rest) =>
        let (vs, stop, rest) := ofBytes.items fuel false rest
        (v :: vs, stop, rest)) = (ds, stop, some rest)) :
    ∃ text texts, (∀ t ∈ text :: texts, WellFormed t) ∧
      bs = text ++ (further 0x5D texts ++ rest) := by
  split at h
  · cases h
  · next v behind hread =>
    obtain ⟨text, htext, rfl⟩ := hvalue hread
    obtain ⟨vs, stop', rest', hothers⟩ : ∃ vs stop rest',
      ofBytes.items fuel false behind = (vs, stop, rest') := ⟨_, _, _, rfl⟩
    rw [hothers] at h
    cases h
    obtain ⟨blanks, texts, hblanks, htexts, rfl⟩ := hitems hothers
    have hall := List.forall_mem_cons.2 ⟨wellFormed_append htext hblanks, htexts⟩
    exact ⟨text ++ blanks, texts, hall, by simp⟩

theorem itemsSound_succ (hvalue : ValueSound fuel) (hitems : ItemsSound fuel) :
    ItemsSound (fuel + 1) := by
  intro first bs ds stop rest h
  obtain ⟨blanks, hblanks, hbs⟩ := exists_skipBlanks bs
  unfold ofBytes.items at h
  simp only at h
  split at h
  case h_1 => cases h
  case h_2 heq =>
    cases h
    refine ⟨blanks, [], hblanks, List.forall_mem_nil _, ?_⟩
    rw [hbs, heq, listed, further, ite_self]
    rfl
  case h_3 =>
    obtain ⟨text, texts, htexts, heq⟩ := item_sound hvalue hitems h
    refine ⟨blanks, text :: texts, hblanks, htexts, ?_⟩
    rw [if_pos rfl, listed, List.append_assoc, ← heq, ← hbs]
  case h_4 behind heq =>
    obtain ⟨blanks', hblanks', hbehind⟩ := exists_skipBlanks behind
    split at h
    · cases h
    · obtain ⟨text, texts, htexts, hitem⟩ := item_sound hvalue hitems h
      -- blanks behind the comma are counted to the item
      obtain ⟨htext, htexts⟩ := List.forall_mem_cons.1 htexts
      refine ⟨blanks, (blanks' ++ text) :: texts, hblanks,
        List.forall_mem_cons.2 ⟨append_wellFormed hblanks' htext, htexts⟩, ?_⟩
      rw [if_neg Bool.false_ne_true, further, hbs, heq, hbehind, hitem]
      simp
  case h_5 => cases h

/-- A member behind its opening quotation mark, and the blanks around its value. -/
theorem member_sound (hvalue : ValueSound fuel) (hmembers : MembersSound fuel) {first : Bool}
    {members : List (Option String × Draft)} {stop : Option Break}
    (h : (match scanString [] false bs with
      | .unclosed b => ([], some (if first then b else b.behind), none)
      | .closed name rest =>
        match skipBlanks rest with
        | [] => ([(name, .broken (.both .ended))], none, none)
        | 0x3A :: rest =>
          match ofBytes.value fuel rest with
          | (v, none) => ([(name, v)], none, none)
          | (v, some rest) =>
            let (ms, stop, rest) := ofBytes.members fuel false rest
            ((name, v) :: ms, stop, rest)
        | _ => ([(name, .broken (.both .malformed))], none, none)) = (members, stop, some rest))
    {blanks : List UInt8} (hblanks : Blank blanks) :
    ∃ m : Member, ∃ ms : List Member, (∀ m' ∈ m :: ms, m'.Named) ∧
      (∀ m' ∈ m :: ms, WellFormed m'.value) ∧
      blanks ++ 0x22 :: bs = m.text ++ (further 0x7D (ms.map Member.text) ++ rest) := by
  split at h
  · cases h
  · next name behind hscan =>
    obtain ⟨letters, hletters, rfl⟩ := letters_of_closed hscan
    obtain ⟨blanks', hblanks', hbehind⟩ := exists_skipBlanks behind
    split at h
    · cases h
    · next tail hcolon =>
      split at h
      · cases h
      · next v behind' hread =>
        obtain ⟨text, htext, rfl⟩ := hvalue hread
        obtain ⟨others, stop', rest', hothers⟩ : ∃ others stop rest',
          ofBytes.members fuel false behind' = (others, stop, rest') := ⟨_, _, _, rfl⟩
        rw [hothers] at h
        cases h
        obtain ⟨blanks'', ms, hblanks'', hnamed, hvalues, rfl⟩ := hmembers hothers
        -- blanks behind the value are counted to it
        refine ⟨⟨blanks, letters, blanks', text ++ blanks''⟩, ms,
          List.forall_mem_cons.2 ⟨⟨hblanks, hletters, hblanks'⟩, hnamed⟩,
          List.forall_mem_cons.2 ⟨wellFormed_append htext hblanks'', hvalues⟩, ?_⟩
        rw [hbehind, hcolon]
        simp [Member.text]
    · cases h

theorem membersSound_succ (hvalue : ValueSound fuel) (hmembers : MembersSound fuel) :
    MembersSound (fuel + 1) := by
  intro first bs members stop rest h
  obtain ⟨blanks, hblanks, hbs⟩ := exists_skipBlanks bs
  unfold ofBytes.members at h
  simp only at h
  split at h
  case h_1 => cases h
  case h_2 heq =>
    cases h
    refine ⟨blanks, [], hblanks, List.forall_mem_nil _, List.forall_mem_nil _, ?_⟩
    rw [hbs, heq, List.map_nil, listed, further, ite_self]
    rfl
  case h_3 behind heq =>
    obtain ⟨m, ms, hnamed, hvalues, hbytes⟩ :=
      member_sound hvalue hmembers h (List.forall_mem_nil _)
    refine ⟨blanks, m :: ms, hblanks, hnamed, hvalues, ?_⟩
    rw [if_pos rfl, List.map_cons, listed, List.append_assoc, ← hbytes, hbs, heq]
    rfl
  case h_4 => cases h
  case h_5 behind heq =>
    obtain ⟨blanks', hblanks', hbehind⟩ := exists_skipBlanks behind
    split at h
    · cases h
    · next tail hquote =>
      obtain ⟨m, ms, hnamed, hvalues, hbytes⟩ := member_sound hvalue hmembers h hblanks'
      refine ⟨blanks, m :: ms, hblanks, hnamed, hvalues, ?_⟩
      rw [if_neg Bool.false_ne_true, List.map_cons, further, List.cons_append, List.append_assoc,
        ← hbytes, ← hquote, ← hbehind, ← heq, ← hbs]
    · cases h
  case h_6 => cases h

theorem sound : ∀ fuel, ValueSound fuel ∧ ItemsSound fuel ∧ MembersSound fuel
  | 0 => ⟨nofun, nofun, nofun⟩
  | fuel + 1 =>
    have ⟨hvalue, hitems, hmembers⟩ := sound fuel
    ⟨valueSound_succ hitems hmembers, itemsSound_succ hvalue hitems,
      membersSound_succ hvalue hmembers⟩

/-- **A value that ends has a well-formed text.** -/
theorem wellFormed_of_value (h : ofBytes.value fuel bs = (d, some rest)) :
    ∃ text, WellFormed text ∧ bs = text ++ rest :=
  (sound fuel).1 h

/-- **The well-formed texts are those that are read to their end.** -/
theorem wellFormed_iff :
    WellFormed bs ↔ ∃ d rest, ofBytes bs = (d, some rest) ∧ skipBlanks rest = [] := by
  constructor
  · intro h
    obtain ⟨d, hread, -⟩ := exists_reads h
    obtain ⟨rest, hbytes, hrest⟩ := ofBytes_of_reads hread
    exact ⟨d, rest, hbytes, hrest⟩
  · rintro ⟨d, rest, hbytes, hend⟩
    obtain ⟨text, htext, rfl⟩ := wellFormed_of_value hbytes
    obtain ⟨blanks, hblanks, hrest⟩ := exists_skipBlanks rest
    rw [hend, List.append_nil] at hrest
    rw [hrest]
    exact wellFormed_append htext hblanks

end Draft

/-- **A text that a codec reads is well-formed.** -/
theorem Codec.wellFormed_of_readText {α : Type} {c : Codec α} {bs : List UInt8} {a : α}
    (h : c.readText bs = .ok a) : Json.WellFormed bs := by
  obtain ⟨d, behind, hbytes⟩ : ∃ d behind, Draft.ofBytes bs = (d, behind) := ⟨_, _, rfl⟩
  simp only [readText, hbytes, bind, Except.bind] at h
  split at h
  · cases h
  split at h
  · next rest =>
    split at h
    · next hend => exact Draft.wellFormed_iff.2 ⟨d, rest, hbytes, List.isEmpty_iff.1 hend⟩
    · cases h
  · cases h

end ModelKeeper
