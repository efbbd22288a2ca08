import ModelKeeper.Chat.Client

/-!
# Vendors as the operator meets them

`Vendors` is all that the operator needs of the outer world to talk to vendors: whether there is a
client, and the answers to requests, which may depend on a state.  `Vendors.overHttp` are those that
are reached by the client for chat completions.
-/

namespace ModelKeeper

/-- The clients for vendors, with a state of type `σ`. -/
structure Vendors (σ : Type) where
  connect : Connection → Except ChatError Unit
  validate : Connection → List CallOption → σ → Except ChatError Reply × σ
  call : Connection → List UInt8 → σ → Except ChatError Reply × σ

/-- The vendors whose servers are reached by some exchange. -/
def Vendors.overHttp {σ : Type} (exchange : Client.Exchange σ) : Vendors σ where
  connect c := (Client.ofConnection c).map (fun _ => ())
  validate c options s :=
    match Client.ofConnection c with
    | .error e => (.error e, s)
    | .ok client => client.validate exchange options s
  call c payload s :=
    match Client.ofConnection c with
    | .error e => (.error e, s)
    | .ok client => client.call exchange payload s

end ModelKeeper
