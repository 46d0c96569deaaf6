import PlanetCharlu.World
import PlanetCharlu.Lib.StableSort

/-!
# Client messages (`codec.py`, `protos/bazaar.proto`)

The commands the trading client builds. The protobuf runtime writes them. All the decision
code reads off their binary form is its length, which it compares with
`max_command_bytes`; that length is a parameter of the decisions
(`ChooseEnv.encodedLength`).

The samples take the proto2 form for it. Field numbers are those of `bazaar.proto`.
Required fields are written even when they hold zero; repeated enum fields are
unpacked. A wire integer below `2 ^ 64` has at most ten varint bytes.
-/

namespace PlanetCharlu

open StableSort

structure OfferBody where
  recipientId : String
  give : Bundle
  receive : Bundle
  expiresTick : Nat
deriving DecidableEq, Repr

structure AdvertiseBody where
  selling : List Resource
  seeking : List Resource
  expiresTick : Nat
deriving DecidableEq, Repr

/-- The arms of `ClientMessage` that the trading client sends after readiness. -/
inductive ClientMessage where
  | advertise (runId requestId : String) (body : AdvertiseBody)
  | offer (runId requestId : String) (body : OfferBody)
  | accept (runId requestId offerId : String)
  | withdraw (runId requestId objectId : String)
  | sync (runId : String)
deriving DecidableEq, Repr

def ClientMessage.runId : ClientMessage → String
  | .advertise runId _ _ => runId
  | .offer runId _ _ => runId
  | .accept runId _ _ => runId
  | .withdraw runId _ _ => runId
  | .sync runId => runId

def ClientMessage.requestId? : ClientMessage → Option String
  | .advertise _ requestId _ => some requestId
  | .offer _ requestId _ => some requestId
  | .accept _ requestId _ => some requestId
  | .withdraw _ requestId _ => some requestId
  | .sync _ => none

namespace Codec

def PROTOCOL_VERSION : String := "2.0"

def resourceToWire : Resource → Nat
  | .water => 1
  | .food => 2
  | .components => 3

/-! ### The builders -/

def buildSync (runId : String) : ClientMessage := .sync runId

def buildAdvertise (runId requestId : String) (selling seeking : List Resource)
    (expiresTick : Nat) : ClientMessage :=
  .advertise runId requestId { selling, seeking, expiresTick }

def buildOffer (runId requestId recipientId : String) (give receive : Bundle)
    (expiresTick : Nat) : ClientMessage :=
  .offer runId requestId { recipientId, give, receive, expiresTick }

def buildAccept (runId requestId offerId : String) : ClientMessage :=
  .accept runId requestId offerId

def buildWithdraw (runId requestId objectId : String) : ClientMessage :=
  .withdraw runId requestId objectId

/-! ### The proto2 form -/

def varintAux : Nat → Nat → List UInt8
  | 0, n => [UInt8.ofNat n]
  | fuel + 1, n =>
      if n < 128 then [UInt8.ofNat n]
      else UInt8.ofNat (n % 128 + 128) :: varintAux fuel (n / 128)

def varint (n : Nat) : List UInt8 := varintAux 9 n

def tag (field wireType : Nat) : List UInt8 := varint (8 * field + wireType)

def uintField (field value : Nat) : List UInt8 := tag field 0 ++ varint value

def bytesField (field : Nat) (value : List UInt8) : List UInt8 :=
  tag field 2 ++ varint value.length ++ value

def stringField (field : Nat) (value : String) : List UInt8 :=
  bytesField field (value.toList.flatMap String.utf8EncodeChar)

def encodeBundle (b : Bundle) : List UInt8 :=
  uintField 1 b.water ++ uintField 2 b.food ++ uintField 3 b.components

def encodeResources (items : List Resource) : List UInt8 :=
  items.flatMap fun r => uintField 1 (resourceToWire r)

def encodeAdvertiseBody (body : AdvertiseBody) : List UInt8 :=
  bytesField 1 (encodeResources body.selling) ++ bytesField 2 (encodeResources body.seeking) ++
    uintField 3 body.expiresTick

def encodeOfferBody (body : OfferBody) : List UInt8 :=
  stringField 1 body.recipientId ++ bytesField 2 (encodeBundle body.give) ++
    bytesField 3 (encodeBundle body.receive) ++ uintField 4 body.expiresTick

/-- The five fields every command shares: its type, the protocol version, the
run, the request, and the encoded body. -/
def encodeCommand (runId requestId : String) (body : List UInt8) : List UInt8 :=
  uintField 1 1 ++ stringField 2 PROTOCOL_VERSION ++ stringField 3 runId ++
    stringField 4 requestId ++ bytesField 5 body

def encodeClientMessage : ClientMessage → List UInt8
  | .advertise runId requestId body =>
      bytesField 1 (encodeCommand runId requestId (encodeAdvertiseBody body))
  | .offer runId requestId body =>
      bytesField 2 (encodeCommand runId requestId (encodeOfferBody body))
  | .accept runId requestId offerId =>
      bytesField 3 (encodeCommand runId requestId (stringField 1 offerId))
  | .withdraw runId requestId objectId =>
      bytesField 4 (encodeCommand runId requestId (stringField 1 objectId))
  | .sync runId =>
      bytesField 5 (uintField 1 1 ++ stringField 2 PROTOCOL_VERSION ++ stringField 3 runId)

/-! ### Lengths -/

theorem length_varintAux_mono (fuel : Nat) {m n : Nat} (h : m ≤ n) :
    (varintAux fuel m).length ≤ (varintAux fuel n).length := by
  induction fuel generalizing m n with
  | zero => rfl
  | succ fuel ih =>
      unfold varintAux
      split_ifs with hm hn
      · rfl
      · simp
      · exact absurd (h.trans_lt ‹n < 128›) hm
      · exact Nat.succ_le_succ (ih (Nat.div_le_div_right h))

theorem length_bytesField_le {field field' : Nat} {value value' : List UInt8}
    (htag : (tag field 2).length ≤ (tag field' 2).length) (h : value.length ≤ value'.length) :
    (bytesField field value).length ≤ (bytesField field' value').length := by
  have hvarint : (varint value.length).length ≤ (varint value'.length).length :=
    length_varintAux_mono 9 h
  simp only [bytesField, List.length_append]
  omega

/-- A command says everything that a `sync` for its run says. -/
theorem length_sync_le (m : ClientMessage) :
    (encodeClientMessage (.sync m.runId)).length ≤ (encodeClientMessage m).length := by
  have hcommand : ∀ (runId requestId : String) (body : List UInt8),
      (uintField 1 1 ++ stringField 2 PROTOCOL_VERSION ++ stringField 3 runId).length ≤
        (encodeCommand runId requestId body).length := by
    intro runId requestId body
    simp only [encodeCommand, List.length_append]
    omega
  cases m with
  | sync runId => rfl
  | _ => exact length_bytesField_le (by decide) (hcommand _ _ _)

end Codec

/-- `sorted(resources, key=lambda r: r.value)` on a set of resources. The keys
are distinct, so the set's own iteration order does not matter. -/
def sortedByValue (resources : Finset Resource) : List Resource :=
  sortedBy Resource.value (RESOURCES.filter (· ∈ resources))

@[simp] theorem mem_sortedByValue {resources : Finset Resource} {r : Resource} :
    r ∈ sortedByValue resources ↔ r ∈ resources := by
  simp [sortedByValue]

end PlanetCharlu
