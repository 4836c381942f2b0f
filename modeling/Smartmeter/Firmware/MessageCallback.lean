import Smartmeter.Sml.Task

/-!
# The callback of the firmware

`MessageCallback` looks for two entries in the value lists of a frame and
passes them on to C when the frame is valid and both were found.
-/

namespace Smartmeter
namespace Firmware

open Foundation
open Sml
open Sml.Tlv (Read Reading)
open Sml.Types

def obisActiveEnergy : List UInt8 := [0x01, 0x00, 0x01, 0x08, 0x00, 0xFF]

def obisActivePower : List UInt8 := [0x01, 0x00, 0x10, 0x07, 0x00, 0xFF]

structure Value where
  scaler : Int
  value : Nat
deriving DecidableEq, Repr

structure CallbackData where
  activePower : Value
  activeEnergy : Value
deriving DecidableEq, Repr

structure MessageCallback where
  activePower : Option Value
  activeEnergy : Option Value
deriving DecidableEq, Repr

structure Entry where
  objName : List UInt8
  scaler : Int
  value : ValueEnum
deriving DecidableEq, Repr

namespace Entry

def decode : Reading .list (Option Entry) := do
  let objName ← ListEntry.objName do
    let len ← Reading.len
    if len > 7 then pure none
    else some <$> Reading.read len
  match objName with
  | none => pure none
  | some objName =>
      let scaler ← ListEntry.scaler
      let value ← Types.Value.read
      pure (some { objName := objName, scaler := scaler.getD 0, value := value })

def value64 (entry : Entry) : Except Error Nat :=
  match entry.value.intoI128Relaxed with
  | .error e => .error e
  | .ok n => if 0 ≤ n ∧ n < 2 ^ 64 then .ok n.toNat else .error .tryFromIntError

end Entry

namespace MessageCallback

def new : MessageCallback := { activePower := none, activeEnergy := none }

def frameStart (_ : MessageCallback) : MessageCallback :=
  { activePower := none, activeEnergy := none }

def store (self : MessageCallback) (entry : Entry) : Except Error MessageCallback :=
  if entry.objName = obisActivePower then do
    let value ← entry.value64
    if self.activePower.isSome then .error .unexpectedValue
    else pure { self with activePower := some { scaler := entry.scaler, value := value } }
  else if entry.objName = obisActiveEnergy then do
    let value ← entry.value64
    if self.activeEnergy.isSome then .error .unexpectedValue
    else pure { self with activeEnergy := some { scaler := entry.scaler, value := value } }
  else pure self

/-- The loop over the entries of a value list; an error keeps what was stored. -/
def entries : Nat -> MessageCallback -> Read .list (Except Error Unit × MessageCallback)
  | 0, _ => .stuck
  | n + 1, self => do
      match ← (SmlList.next Entry.decode).run with
      | .error e => pure (.error e, self)
      | .ok none => pure (.ok (), self)
      | .ok (some none) => entries n self
      | .ok (some (some entry)) =>
          match self.store entry with
          | .error e => pure (.error e, self)
          | .ok self => entries n self

def messageReceived [Machine] (self : MessageCallback) :
    Read .list (Except Error Unit × MessageCallback) := do
  let res ← ExceptT.run <| MessageBody.read fun variant =>
    match variant with
    | .getListResponse =>
        GetListResponse.valList (ExceptT.lift (entries Machine.fuel self))
    | _ => pure (.ok (), self)
  match res with
  | .error e => pure (.error e, self)
  | .ok x => pure x

def frameFinished (valid : Bool) (self : MessageCallback) :
    MessageCallback × List CallbackData :=
  if !valid then (self, [])
  else
    match self.activePower, self.activeEnergy with
    | some activePower, some activeEnergy =>
        ({ activePower := none, activeEnergy := none },
          [{ activePower := activePower, activeEnergy := activeEnergy }])
    | _, _ => ({ activePower := none, activeEnergy := none }, [])

def callback [Machine] : Callback MessageCallback CallbackData where
  frameStart := frameStart
  messageReceived := messageReceived
  frameFinished := frameFinished

end MessageCallback

end Firmware
end Smartmeter
