import ModelKeeper.Proofs.Json.Reworded
import ModelKeeper.Proofs.Resource.Restored

/-!
# Parameters in other words

Parameters without temperature and `top_p` are read from their bytes, and from any text that says
the same in other words: with the members of objects in another order, and with members that the
parameters and their messages do not know (`Params.unmarshal_reworded`).
-/

namespace ModelKeeper

/-- The members of a message. -/
def Message.shape : Json.Shape := .record [("role", .plain), ("content", .plain)]

/-- The members of parameters. -/
def Params.shape : Json.Shape :=
  .record [("method", .plain), ("model", .plain), ("temperature", .plain), ("top_p", .plain),
    ("prompt", .list Message.shape), ("task_id", .plain), ("incremental", .plain)]

@[simp]
theorem Role.codec_recovers (r : Role) : Role.codec.Recovers .plain r :=
  Codec.recovers_plain r.codec_restores .str

@[simp]
theorem Message.codec_recovers (m : Message) : Message.codec.Recovers Message.shape m :=
  Codec.recovers_record (by decide) rfl rfl (by simp) _

namespace Params

theorem codec_recovers {p : Params} (h : p.IsPlain) : codec.Recovers shape p :=
  Codec.recovers_record (by decide) rfl rfl (by simp [h.temperature, h.topP]) _

/-- **Parameters survive other words.**  They are read from their bytes, and from any text that they
are reworded to. -/
theorem unmarshal_reworded {p : Params} (h : p.IsPlain) :
    unmarshal p.marshal = .ok p ∧
      ∀ bytes, Json.Rewording shape (codec.write p) bytes → unmarshal bytes = .ok p :=
  ⟨(codec_recovers h).readText (.same _), fun _ => (codec_recovers h).readText⟩

open Json in
/-- Members in the reverse order, behind one whose number is too large. -/
theorem unmarshal_reworded_reversed :
    unmarshal (Utf8.ofString ("\x7b\"extra\":1e999,\"prompt\":[\x7b\"content\":\"hi\"," ++
      "\"role\":\"user\"\x7d],\"method\":\"\"\x7d")) =
        .ok ⟨some "", "", none, none, [⟨.user, "hi"⟩], none, false⟩ := by
  -- the members of the message are in the other order
  have hmessage : Rewording Message.shape (Message.codec.write ⟨.user, "hi"⟩) _ :=
    @Rewording.record _ [⟨"role", .plain, .str "user", (Json.str "user").bytes⟩,
      ⟨"content", .plain, .str "hi", (Json.str "hi").bytes⟩] [] _ (by simp)
      (List.forall_mem_cons.2 ⟨.same _, List.forall_mem_singleton.2 (.same _)⟩) nofun (.swap ..)
  have hmessages := @Rewording.list Message.shape [(_, _)] (List.forall_mem_singleton.2 hmessage)
  have hlarge : WellFormed (Utf8.ofString "1e999") := by
    refine .numeral (n := ⟨false, [1], [], some (false, [9, 9, 9])⟩)
      ⟨⟨⟨nofun, by decide⟩, nofun⟩, [], _, .absent, .unsigned (.inl rfl) ⟨nofun, by decide⟩, ?_⟩
    decide
  have hparams : Rewording shape
      (codec.write ⟨some "", "", none, none, [⟨.user, "hi"⟩], none, false⟩) _ :=
    @Rewording.record _ [⟨"method", .plain, .str "", (Json.str "").bytes⟩,
      ⟨"prompt", .list Message.shape, _, _⟩] [_] _ (by simp)
      (List.forall_mem_cons.2 ⟨.same _, List.forall_mem_singleton.2 hmessages⟩)
      (List.forall_mem_singleton.2 (@Member.foreign_written _ "extra" (by decide) _ hlarge))
      (List.reverse_perm _)
  refine Eq.trans (congrArg unmarshal ?_) ((unmarshal_reworded ⟨rfl, rfl⟩).2 _ hparams)
  decide

end Params

end ModelKeeper
