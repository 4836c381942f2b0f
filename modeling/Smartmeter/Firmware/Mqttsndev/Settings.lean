import Mathlib.Data.List.AList
import Smartmeter.Foundation.BigEndian
import Smartmeter.Foundation.System

/-!
# Settings

The address and the port of the gateway and the client ID are variables that
shell commands write and that are kept in a store.  They are loaded from the
store at boot.
-/

namespace Smartmeter
namespace Firmware
namespace Mqttsndev
namespace Settings

open Foundation

def EINVAL : Int := 22

def ENOENT : Int := 2

/-!
## Globals
-/

structure In6Addr where
  bytes : List UInt8
  length_eq : bytes.length = 16
deriving DecidableEq

namespace In6Addr

theorem length_zero : (List.replicate 16 (0 : UInt8)).length = 16 := List.length_replicate

def zero : In6Addr := { bytes := List.replicate 16 0, length_eq := length_zero }

def ofBytes (value : List UInt8) : Option In6Addr :=
  if h : value.length = 16 then some { bytes := value, length_eq := h } else none

theorem ofBytes_bytes (address : In6Addr) : ofBytes address.bytes = some address :=
  dif_pos address.length_eq

theorem bytes_ne_nil (address : In6Addr) : address.bytes ≠ [] := by
  apply List.ne_nil_of_length_pos
  rw [address.length_eq]
  exact Nat.succ_pos 15

end In6Addr

def portBytes (port : UInt16) : List UInt8 := (beBytes 2 port.toNat).reverse

def portOfBytes (value : List UInt8) : Option UInt16 :=
  if value.length = 2 then some (UInt16.ofNat (beNat value.reverse)) else none

theorem length_portBytes (port : UInt16) : (portBytes port).length = 2 := by
  unfold portBytes
  rw [List.length_reverse, length_beBytes]

theorem portOfBytes_portBytes (port : UInt16) : portOfBytes (portBytes port) = some port := by
  unfold portOfBytes
  rw [if_pos (length_portBytes port)]
  unfold portBytes
  have hlt : port.toNat % 256 ^ 2 = port.toNat := Nat.mod_eq_of_lt port.toNat_lt
  rw [List.reverse_reverse, beNat_beBytes, hlt, UInt16.ofNat_toNat]

theorem portBytes_ne_nil (port : UInt16) : portBytes port ≠ [] := by
  apply List.ne_nil_of_length_pos
  rw [length_portBytes]
  exact Nat.two_pos

structure ClientId (size : Nat) where
  data : List UInt8
  length : Nat
  length_data : data.length = size
  length_le : length ≤ size

namespace ClientId

variable {size : Nat}

def bytes (id : ClientId size) : List UInt8 := id.data.take id.length

abbrev Source (size : Nat) : Type := { source : List UInt8 // source.length ≤ size }

def sourceOf (size : Nat) (value : List UInt8) : Option (Source size) :=
  if h : value.length ≤ size then some ⟨value, h⟩ else none

theorem length_memcpy (id : ClientId size) (source : Source size) :
    (source.1 ++ id.data.drop source.1.length).length = size := by
  have hle := source.2
  rw [List.length_append, List.length_drop, id.length_data]
  lia

def memcpy (id : ClientId size) (source : Source size) : ClientId size where
  data := source.1 ++ id.data.drop source.1.length
  length := source.1.length
  length_data := id.length_memcpy source
  length_le := source.2

theorem bytes_memcpy (id : ClientId size) (source : Source size) :
    (id.memcpy source).bytes = source.1 :=
  List.take_left

def zephyr : List UInt8 := [0x5A, 0x45, 0x50, 0x48, 0x59, 0x52]

def zeros (size : Nat) : ClientId size where
  data := List.replicate size 0
  length := 0
  length_data := List.length_replicate
  length_le := Nat.zero_le size

end ClientId

/-- The variables; the buffer of the client ID has `size` bytes. -/
structure Globals (size : Nat) where
  gatewayIp : In6Addr
  gatewayPort : UInt16
  clientId : ClientId size

namespace Globals

variable {size : Nat}

def boot (hsize : ClientId.zephyr.length ≤ size) : Globals size where
  gatewayIp := .zero
  gatewayPort := 0
  clientId := (ClientId.zeros size).memcpy ⟨ClientId.zephyr, hsize⟩

/--
`set`, given the name behind `mqttsndev/`, the value that is stored and the result of
`read_cb`, which reads all of it or fails.
-/
def set (s : Globals size) (name : String) (value : List UInt8) (ret : Int) :
    Int × Globals size :=
  if name = "gateway_ip" then
    match In6Addr.ofBytes value with
    | none => (-EINVAL, s)
    | some tmp => if ret < 0 then (ret, s) else (0, { s with gatewayIp := tmp })
  else if name = "gateway_port" then
    match portOfBytes value with
    | none => (-EINVAL, s)
    | some tmp => if ret < 0 then (ret, s) else (0, { s with gatewayPort := tmp })
  else if name = "client_id" then
    match ClientId.sourceOf size value with
    | none => (-EINVAL, s)
    | some tmp =>
        if ret < 0 then (ret, s) else (0, { s with clientId := s.clientId.memcpy tmp })
  else (-ENOENT, s)

end Globals

/-!
## The store
-/

abbrev Entry : Type := Sigma fun _ : String => List UInt8

/--
What the settings subsystem keeps its entries in.  `load` gives what `settings_load`
hands to `set`, in its order, `save` is `settings_save_one` when it succeeds.
-/
class Backend (σ : Type) where
  load : σ -> List Entry
  save : σ -> String -> List UInt8 -> σ

def Backend.lookup {σ : Type} [Backend σ] (store : σ) (name : String) : Option (List UInt8) :=
  (load store).dlookup name

/--
What every backend promises: a name is loaded at most once, with the value that
was saved for it last, and saving no bytes takes the entry out.
-/
class LawfulBackend (σ : Type) [Backend σ] : Prop where
  nodupKeys_load (store : σ) : (Backend.load store).NodupKeys
  lookup_save (store : σ) (name : String) {value : List UInt8} (h : value ≠ []) :
    Backend.lookup (Backend.save store name value) name = some value
  lookup_save_nil (store : σ) (name : String) :
    Backend.lookup (Backend.save store name []) name = none
  lookup_save_ne (store : σ) {name other : String} (value : List UInt8) (h : other ≠ name) :
    Backend.lookup (Backend.save store name value) other = Backend.lookup store other

/-- A backend in memory. -/
abbrev Store : Type := AList fun _ : String => List UInt8

namespace Store

def save (store : Store) (name : String) (value : List UInt8) : Store :=
  if value = [] then store.erase name else store.insert name value

instance : Backend Store where
  load := AList.entries
  save := save

theorem lookup_save (store : Store) (name : String) {value : List UInt8} (h : value ≠ []) :
    (store.save name value).lookup name = some value := by
  unfold save
  rw [if_neg h, AList.lookup_insert]

theorem lookup_save_nil (store : Store) (name : String) :
    (store.save name []).lookup name = none := by
  unfold save
  rw [if_pos rfl, AList.lookup_erase]

theorem lookup_save_ne (store : Store) {name other : String} (value : List UInt8)
    (h : other ≠ name) : (store.save name value).lookup other = store.lookup other := by
  unfold save
  split
  · exact AList.lookup_erase_ne h
  · exact AList.lookup_insert_ne h

instance : LawfulBackend Store where
  nodupKeys_load := AList.nodupKeys
  lookup_save := lookup_save
  lookup_save_nil := lookup_save_nil
  lookup_save_ne := lookup_save_ne

end Store

structure Device (size : Nat) (σ : Type) where
  globals : Globals size
  store : σ

namespace Device

variable {size : Nat} {σ : Type} [Backend σ]

def settingsSaveOne (d : Device size σ) (name : String) (value : List UInt8) (saved : Bool) :
    Device size σ :=
  if saved then { d with store := Backend.save d.store name value } else d

def settingsLoad (d : Device size σ) (rets : String -> Int) : Device size σ :=
  { d with
    globals := (Backend.load d.store).foldl
      (fun s entry => (s.set entry.1 entry.2 (rets entry.1)).2) d.globals }

end Device

/-!
## Numbers
-/

def isSpace (c : UInt8) : Bool := c = 0x20 || (0x09 ≤ c && c ≤ 0x0D)

def isDigit (c : UInt8) : Bool := 0x30 ≤ c && c ≤ 0x39

def decimal (digits : List UInt8) : Nat :=
  digits.foldl (fun n digit => 10 * n + (digit.toNat - 0x30)) 0

/-- What `strtoul` returns, whether it sets `errno`, and what is behind `endptr`. -/
structure Strtoul where
  ret : Nat
  errno : Bool
  endptr : List UInt8
deriving DecidableEq, Repr

def ulongSize : Nat := 2 ^ 32

def takeSign : List UInt8 -> Bool × List UInt8
  | 0x2D :: text => (true, text)
  | 0x2B :: text => (false, text)
  | text => (false, text)

/--
`strtoul` for base 10; `einval` is whether it sets `errno` when there is no
number.
-/
def strtoul (einval : Bool) (text : List UInt8) : Strtoul :=
  let signed := takeSign (text.dropWhile isSpace)
  let digits := signed.2.takeWhile isDigit
  let endptr := signed.2.dropWhile isDigit
  if digits = [] then { ret := 0, errno := einval, endptr := text }
  else if ulongSize ≤ decimal digits then
    { ret := ulongSize - 1, errno := true, endptr := endptr }
  else if signed.1 then
    { ret := (ulongSize - decimal digits) % ulongSize, errno := false, endptr := endptr }
  else { ret := decimal digits, errno := false, endptr := endptr }

def portOf (einval : Bool) (text : List UInt8) : Option UInt16 :=
  let number := strtoul einval text
  if number.errno ∨ number.endptr ≠ [] ∨ number.ret > 0xFFFF then none
  else some (UInt16.ofNat number.ret)

/-!
## The shell

The commands are given the arguments behind their name and whether the new value
is saved.
-/

structure Platform where
  inetPton : List UInt8 -> Option In6Addr
  /-- Whether `strtoul` sets `errno` when there is no number. -/
  einval : Bool

namespace Device

variable {size : Nat} {σ : Type} [Backend σ]

/--
A command without an argument prints the variable.  With one that is well formed
it writes the variable and saves what is in it.
-/
def command {α : Type} (parse : List UInt8 -> Option α) (assign : Globals size -> α -> Globals size)
    (name : String) (value : Globals size -> List UInt8) (d : Device size σ)
    (argv : List (List UInt8)) (saved : Bool) : Int × Device size σ :=
  match argv with
  | [] => (0, d)
  | [arg] =>
      match parse arg with
      | none => (-EINVAL, d)
      | some tmp =>
          let d := { d with globals := assign d.globals tmp }
          (0, d.settingsSaveOne name (value d.globals) saved)
  | _ => (-EINVAL, d)

def cmdGatewayIp (platform : Platform) : Device size σ -> List (List UInt8) -> Bool ->
    Int × Device size σ :=
  command platform.inetPton (fun s tmp => { s with gatewayIp := tmp }) "gateway_ip"
    fun s => s.gatewayIp.bytes

def cmdGatewayPort (platform : Platform) : Device size σ -> List (List UInt8) -> Bool ->
    Int × Device size σ :=
  command (portOf platform.einval) (fun s tmp => { s with gatewayPort := tmp }) "gateway_port"
    fun s => portBytes s.gatewayPort

def cmdClientId : Device size σ -> List (List UInt8) -> Bool -> Int × Device size σ :=
  command (ClientId.sourceOf size)
    (fun s newId => { s with clientId := s.clientId.memcpy newId }) "client_id"
    fun s => s.clientId.bytes

end Device

inductive Step where
  | cmdGatewayIp (argv : List (List UInt8)) (saved : Bool)
  | cmdGatewayPort (argv : List (List UInt8)) (saved : Bool)
  | cmdClientId (argv : List (List UInt8)) (saved : Bool)
  /-- The variables are reset and loaded, given the results of `read_cb` by name. -/
  | reboot (rets : String -> Int)

section

variable {size : Nat} {σ : Type} [Backend σ] (platform : Platform) (hsize : ClientId.zephyr.length ≤ size)

def Device.reboot (d : Device size σ) (rets : String -> Int) : Device size σ :=
  { d with globals := Globals.boot hsize }.settingsLoad rets

def Device.next (d : Device size σ) : Step -> Device size σ
  | .cmdGatewayIp argv saved => (d.cmdGatewayIp platform argv saved).2
  | .cmdGatewayPort argv saved => (d.cmdGatewayPort platform argv saved).2
  | .cmdClientId argv saved => (d.cmdClientId argv saved).2
  | .reboot rets => d.reboot hsize rets

def settingsSystem (store : σ) : System (Device size σ) Step where
  init := { globals := Globals.boot hsize, store := store }
  next d a := some (d.next platform hsize a)

end

end Settings
end Mqttsndev
end Firmware
end Smartmeter
