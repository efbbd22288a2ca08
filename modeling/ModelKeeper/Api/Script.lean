import ModelKeeper.Api.Message

/-!
# A server whose replies are given beforehand

A `Script` stands for a server that replies to one request after another as it was told to, whatever
they ask for, and notes them.
-/

namespace ModelKeeper

/-- A server whose replies are given beforehand. -/
structure Script where
  /-- The replies to come; `none` where the connection is lost. -/
  pending : List (Option ApiReply) := []
  /-- The requests that were made, the last one first. -/
  seen : List ApiRequest := []

namespace Script

/-- The reply when none is given. -/
def missing : ApiReply := ⟨500, Utf8.ofString "no scripted response"⟩

/-- One exchange. -/
def exchange : Api.Exchange Script := fun r s =>
  let s := { s with seen := r :: s.seen }
  match s.pending with
  | [] => (some missing, s)
  | reply :: pending => (reply, { s with pending })

end Script

end ModelKeeper
