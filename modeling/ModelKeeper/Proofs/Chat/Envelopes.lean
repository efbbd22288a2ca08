import ModelKeeper.Chat.Envelope
import ModelKeeper.Proofs.Json.Accepted
import ModelKeeper.Proofs.Json.Written
import ModelKeeper.Proofs.Text.Base64
import ModelKeeper.Resource.Prompt

/-!
# Kept answers can be read

An envelope is filled with exactly the answer that was written, also when the answer has been kept
in the status of a prompt.  Bytes that spell no envelope, such as any that are no text of JSON,
leave it as it was (`Envelope.fill_kept`).
-/

namespace ModelKeeper

/-- Any bytes can be kept in a status. -/
theorem PromptStatus.dataBytes?_setData (s : PromptStatus) (bytes : List UInt8) :
    (s.setData bytes).dataBytes? = some bytes := by
  simp [setData, dataBytes?, Base64.decode?_encode]

namespace Envelope

variable {bytes : List UInt8}

/-! ### What is written -/

theorem codec_restores (e : Envelope) : codec.Restores e :=
  Codec.restores_record (by decide) rfl (by simp) _

theorem isIntegral (e : Envelope) : (codec.write e).IsIntegral := by
  have hcode := e.code.toNat_lt
  have hwrite : codec.write e = .obj [("code", .int e.code.toNat), ("data", .str e.data),
    ("msg", .str e.msg), ("success", .bool e.success)] := rfl
  rw [hwrite]
  refine .obj (List.forall_mem_cons.2 ⟨.int (by omega) (by omega), ?_⟩)
  simp [Json.IsIntegral.str, Json.IsIntegral.bool]

/-- **An envelope is read from its bytes.** -/
theorem unmarshal_marshal (e : Envelope) : unmarshal e.marshal = .ok e :=
  Codec.readText_bytes e.codec_restores e.isIntegral

/-! ### Filling an envelope -/

theorem fill_ok {e : Envelope} (h : unmarshal bytes = .ok e) (old : Envelope) :
    old.fill bytes = (.ok (), e) := by
  rw [fill, h]

theorem exists_fill_error (h : ∀ e, unmarshal bytes ≠ .ok e) (old : Envelope) :
    ∃ reason, old.fill bytes = (.error (.invalidResponse reason), old) := by
  cases hread : unmarshal bytes with
  | ok e => exact absurd hread (h e)
  | error reason => exact ⟨reason, by rw [fill, hread]⟩

/-- **Answers survive being kept.**  Whatever an envelope holds, another one is filled with exactly
this from its bytes, directly and from the status of a prompt, which keeps any bytes.  If bytes are
no text of JSON, or spell no envelope, the attempt fails, and the other one stays as it was. -/
theorem fill_kept :
    (∀ e old : Envelope, old.fill e.marshal = (.ok (), e) ∧
      ∀ s : PromptStatus, ∃ bytes, (s.setData e.marshal).dataBytes? = some bytes ∧
        old.fill bytes = (.ok (), e)) ∧
    (∀ (s : PromptStatus) (bytes : List UInt8), (s.setData bytes).dataBytes? = some bytes) ∧
    ∀ (old : Envelope) (bytes : List UInt8),
      (¬ Json.WellFormed bytes ∨ ∀ e, unmarshal bytes ≠ .ok e) →
        ∃ reason, old.fill bytes = (.error (.invalidResponse reason), old) := by
  refine ⟨fun e old => ?_, PromptStatus.dataBytes?_setData, fun old bytes h => ?_⟩
  · have hfill : old.fill e.marshal = (.ok (), e) := fill_ok e.unmarshal_marshal old
    exact ⟨hfill, fun s => ⟨e.marshal, s.dataBytes?_setData e.marshal, hfill⟩⟩
  · rcases h with hmalformed | hnone
    · exact exists_fill_error (fun e he => hmalformed (Codec.wellFormed_of_readText he)) old
    · exact exists_fill_error hnone old

/-- Bytes that stop being JSON at the second letter. -/
theorem fill_kept_garbage :
    (∀ e, unmarshal (Utf8.ofString "not json") ≠ .ok e) ∧
      ∃ reason, (ok "Hi there" "").fill (Utf8.ofString "not json") =
        (.error (.invalidResponse reason), ok "Hi there" "") := by
  have hnone : ∀ e, unmarshal (Utf8.ofString "not json") ≠ .ok e := fun e h => by
    have herror : unmarshal (Utf8.ofString "not json") = .error (.fault .malformed) := by rfl
    rw [herror] at h
    cases h
  exact ⟨hnone, fill_kept.2.2 _ _ (.inr hnone)⟩

end Envelope

end ModelKeeper
