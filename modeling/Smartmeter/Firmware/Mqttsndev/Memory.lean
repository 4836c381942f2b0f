import Smartmeter.Firmware.Mqttsndev.Settings

/-!
# What is kept of the settings

After any commands, failed saves and reboots the variables, and what the next
boot makes of the store, are those of a memory with a volatile and a durable
side that knows nothing of buffers, bytes and entries.
-/

namespace Smartmeter
namespace Firmware
namespace Mqttsndev
namespace Settings

open Foundation

/-!
## The memory
-/

@[ext] structure Values where
  gatewayIp : In6Addr
  gatewayPort : UInt16
  clientId : List UInt8
deriving DecidableEq

def Values.boot : Values :=
  { gatewayIp := .zero, gatewayPort := 0, clientId := ClientId.zephyr }

def Globals.values {size : Nat} (s : Globals size) : Values :=
  { gatewayIp := s.gatewayIp, gatewayPort := s.gatewayPort, clientId := s.clientId.bytes }

def clientIdOfBytes (size : Nat) (value : List UInt8) : Option (List UInt8) :=
  (ClientId.sourceOf size value).map Subtype.val

/-- What is kept in a store; an entry that is missing or of a wrong length stands for nothing. -/
def Backend.values {σ : Type} [Backend σ] (size : Nat) (store : σ) : Values where
  gatewayIp := ((lookup store "gateway_ip").bind In6Addr.ofBytes).getD Values.boot.gatewayIp
  gatewayPort := ((lookup store "gateway_port").bind portOfBytes).getD Values.boot.gatewayPort
  clientId :=
    ((lookup store "client_id").bind (clientIdOfBytes size)).getD Values.boot.clientId

structure Memory where
  volatile : Values
  durable : Values
deriving DecidableEq

namespace Memory

def write (m : Memory) (change kept : Values -> Values) (saved : Bool) : Memory where
  volatile := change m.volatile
  durable := if saved then kept m.durable else m.durable

/-- A boot uses what is kept as far as it can be read. -/
def reboot (m : Memory) (rets : String -> Int) : Memory where
  volatile :=
    { gatewayIp := if rets "gateway_ip" < 0 then Values.boot.gatewayIp else m.durable.gatewayIp
      gatewayPort :=
        if rets "gateway_port" < 0 then Values.boot.gatewayPort else m.durable.gatewayPort
      clientId := if rets "client_id" < 0 then Values.boot.clientId else m.durable.clientId }
  durable := m.durable

def command {α : Type} (parse : List UInt8 -> Option α) (change kept : α -> Values -> Values)
    (m : Memory) (argv : List (List UInt8)) (saved : Bool) : Memory :=
  match argv with
  | [arg] =>
      match parse arg with
      | none => m
      | some x => m.write (change x) (kept x) saved
  | _ => m

/-- An empty client ID is used until the next boot but not kept. -/
def keptClientId (id : List UInt8) : List UInt8 := if id = [] then ClientId.zephyr else id

def next (platform : Platform) (size : Nat) (m : Memory) : Step -> Memory
  | .cmdGatewayIp argv saved =>
      let change := fun address (v : Values) => { v with gatewayIp := address }
      m.command platform.inetPton change change argv saved
  | .cmdGatewayPort argv saved =>
      let change := fun port (v : Values) => { v with gatewayPort := port }
      m.command (portOf platform.einval) change change argv saved
  | .cmdClientId argv saved =>
      m.command (ClientId.sourceOf size) (fun id v => { v with clientId := id.1 })
        (fun id v => { v with clientId := keptClientId id.1 }) argv saved
  | .reboot rets => m.reboot rets

end Memory

/-!
## Loading
-/

/-- What a variable becomes when an entry with its name is set. -/
def loaded {α : Type} (decode : List UInt8 -> Option α) (ret : Int) (value : List UInt8)
    (old : α) : α :=
  if ret < 0 then old else (decode value).getD old

namespace Globals

variable {size : Nat}

theorem set_gatewayIp (s : Globals size) (name : String) (value : List UInt8) (ret : Int) :
    (s.set name value ret).2.gatewayIp =
      if name = "gateway_ip" then loaded In6Addr.ofBytes ret value s.gatewayIp
      else s.gatewayIp := by
  unfold set loaded
  grind

theorem set_gatewayPort (s : Globals size) (name : String) (value : List UInt8) (ret : Int) :
    (s.set name value ret).2.gatewayPort =
      if name = "gateway_port" then loaded portOfBytes ret value s.gatewayPort
      else s.gatewayPort := by
  unfold set loaded
  grind

theorem set_clientId (s : Globals size) (name : String) (value : List UInt8) (ret : Int) :
    (s.set name value ret).2.clientId.bytes =
      if name = "client_id" then loaded (clientIdOfBytes size) ret value s.clientId.bytes
      else s.clientId.bytes := by
  unfold set loaded clientIdOfBytes
  cases ClientId.sourceOf size value with
  | none => grind
  | some tmp => grind [ClientId.bytes_memcpy]

theorem foldl_set {α : Type} (get : Globals size -> α) (key : String)
    (decode : List UInt8 -> Option α) (rets : String -> Int)
    (hset : forall s name value, get (set s name value (rets name)).2 =
      if name = key then loaded decode (rets name) value (get s) else get s)
    {entries : List Entry} (hnodup : entries.NodupKeys)
    (s : Globals size) :
    get (entries.foldl (fun s entry => (s.set entry.1 entry.2 (rets entry.1)).2) s) =
      (entries.dlookup key).elim (get s) fun value => loaded decode (rets key) value (get s) := by
  induction entries generalizing s with
  | nil => rfl
  | cons entry entries ih =>
      rcases entry with ⟨name, value⟩
      rcases List.nodupKeys_cons.mp hnodup with ⟨hfresh, hrest⟩
      rw [List.foldl_cons, ih hrest, hset]
      by_cases hname : name = key
      · subst hname
        rw [List.dlookup_eq_none.mpr hfresh, List.dlookup_cons_eq, if_pos rfl]
        rfl
      · rw [List.dlookup_cons_ne _ _ (Ne.symm hname), if_neg hname]

end Globals

theorem elim_loaded {α : Type} (decode : List UInt8 -> Option α) (ret : Int)
    (value : Option (List UInt8)) (old : α) :
    (value.elim old fun value => loaded decode ret value old) =
      if ret < 0 then old else (value.bind decode).getD old := by
  cases value with
  | none => exact (ite_self old).symm
  | some value => rfl

section

variable {size : Nat} {σ : Type} [Backend σ] [LawfulBackend σ]

omit [Backend σ] [LawfulBackend σ] in
theorem values_boot (hsize : ClientId.zephyr.length ≤ size) :
    (Globals.boot hsize).values = Values.boot := by
  unfold Globals.values Values.boot Globals.boot
  rw [ClientId.bytes_memcpy]

theorem values_reboot (hsize : ClientId.zephyr.length ≤ size) (d : Device size σ)
    (rets : String -> Int) (volatile : Values) :
    (d.reboot hsize rets).globals.values =
      ({ volatile := volatile, durable := Backend.values size d.store : Memory }.reboot rets).volatile := by
  have hnodup := LawfulBackend.nodupKeys_load d.store
  have hid : (Globals.boot hsize).clientId.bytes = ClientId.zephyr := ClientId.bytes_memcpy _ _
  apply Values.ext
  · have hload := Globals.foldl_set Globals.gatewayIp "gateway_ip" In6Addr.ofBytes rets
      (fun s name value => s.set_gatewayIp name value (rets name)) hnodup (Globals.boot hsize)
    exact hload.trans (elim_loaded _ _ _ _)
  · have hload := Globals.foldl_set Globals.gatewayPort "gateway_port" portOfBytes rets
      (fun s name value => s.set_gatewayPort name value (rets name)) hnodup (Globals.boot hsize)
    exact hload.trans (elim_loaded _ _ _ _)
  · have hload := Globals.foldl_set (fun s => s.clientId.bytes) "client_id" (clientIdOfBytes size)
      rets (fun s name value => s.set_clientId name value (rets name)) hnodup (Globals.boot hsize)
    rw [elim_loaded, hid] at hload
    exact hload

/-!
## Saving
-/

namespace Backend

open LawfulBackend

theorem gatewayIp_ne_clientId : "gateway_ip" ≠ "client_id" := by decide

theorem gatewayPort_ne_clientId : "gateway_port" ≠ "client_id" := by decide

theorem gatewayPort_ne_gatewayIp : "gateway_port" ≠ "gateway_ip" := by decide

theorem values_gatewayIp (store : σ) (address : In6Addr) :
    values size (save store "gateway_ip" address.bytes) =
      { values size store with gatewayIp := address } := by
  unfold values
  rw [lookup_save _ _ address.bytes_ne_nil, lookup_save_ne _ _ gatewayPort_ne_gatewayIp,
    lookup_save_ne _ _ gatewayIp_ne_clientId.symm, Option.bind_some, In6Addr.ofBytes_bytes]
  rfl

theorem values_gatewayPort (store : σ) (port : UInt16) :
    values size (save store "gateway_port" (portBytes port)) =
      { values size store with gatewayPort := port } := by
  unfold values
  rw [lookup_save _ _ (portBytes_ne_nil port), lookup_save_ne _ _ gatewayPort_ne_gatewayIp.symm,
    lookup_save_ne _ _ gatewayPort_ne_clientId.symm, Option.bind_some, portOfBytes_portBytes]
  rfl

theorem values_clientId (store : σ) {id : List UInt8} (hle : id.length ≤ size) :
    values size (save store "client_id" id) =
      { values size store with clientId := Memory.keptClientId id } := by
  have hfits : clientIdOfBytes size id = some id := by
    unfold clientIdOfBytes ClientId.sourceOf
    rw [dif_pos hle]
    rfl
  unfold values Memory.keptClientId
  rw [lookup_save_ne store id gatewayIp_ne_clientId, lookup_save_ne store id gatewayPort_ne_clientId]
  split <;> rename_i hempty
  · subst hempty
    rw [lookup_save_nil]
    rfl
  · rw [lookup_save _ _ hempty, Option.bind_some, hfits]
    rfl

end Backend

/-!
## Runs
-/

structure Refines (d : Device size σ) (m : Memory) : Prop where
  volatile : d.globals.values = m.volatile
  durable : Backend.values size d.store = m.durable

namespace Refines

variable {d : Device size σ} {m : Memory}

omit [LawfulBackend σ] in
theorem write (h : Refines d m) {globals : Globals size} {change kept : Values -> Values}
    {name : String} {value : List UInt8} (saved : Bool)
    (hglobals : globals.values = change d.globals.values)
    (hstore : Backend.values size (Backend.save d.store name value) =
      kept (Backend.values size d.store)) :
    Refines ({ d with globals := globals }.settingsSaveOne name value saved)
      (m.write change kept saved) := by
  have hvolatile : globals.values = change m.volatile := by
    rw [hglobals, h.volatile]
  cases saved with
  | false => exact ⟨hvolatile, h.durable⟩
  | true =>
      constructor
      · exact hvolatile
      · rw [h.durable] at hstore
        exact hstore

omit [LawfulBackend σ] in
theorem command {α : Type} {parse : List UInt8 -> Option α}
    {assign : Globals size -> α -> Globals size} {name : String}
    {value : Globals size -> List UInt8} {change kept : α -> Values -> Values} (h : Refines d m)
    (argv : List (List UInt8)) (saved : Bool)
    (hassign : forall s x, (assign s x).values = change x s.values)
    (hstore : forall (store : σ) s x,
      Backend.values size (Backend.save store name (value (assign s x))) =
        kept x (Backend.values size store)) :
    Refines (d.command parse assign name value argv saved).2
      (m.command parse change kept argv saved) := by
  rcases argv with _ | ⟨arg, _ | ⟨other, argv⟩⟩
  · exact h
  · unfold Device.command Memory.command
    dsimp only
    cases parse arg with
    | none => exact h
    | some x => exact h.write saved (hassign d.globals x) (hstore d.store d.globals x)
  · exact h

theorem next (platform : Platform) (hsize : ClientId.zephyr.length ≤ size) (h : Refines d m)
    (a : Step) : Refines (d.next platform hsize a) (m.next platform size a) := by
  cases a with
  | cmdGatewayIp argv saved =>
      apply h.command argv saved
      · intro s address
        rfl
      · intro store s address
        exact Backend.values_gatewayIp store address
  | cmdGatewayPort argv saved =>
      apply h.command argv saved
      · intro s port
        rfl
      · intro store s port
        exact Backend.values_gatewayPort store port
  | cmdClientId argv saved =>
      apply h.command argv saved
      · intro s id
        unfold Globals.values
        rw [ClientId.bytes_memcpy]
      · intro store s id
        rw [ClientId.bytes_memcpy]
        exact Backend.values_clientId store id.2
  | reboot rets =>
      have hvalues := values_reboot hsize d rets m.volatile
      rw [h.durable] at hvalues
      exact ⟨hvalues, h.durable⟩

end Refines

def Memory.after (platform : Platform) (size : Nat) (store : σ) (as : List Step) : Memory :=
  as.foldl (Memory.next platform size)
    { volatile := Values.boot, durable := Backend.values size store }

theorem refines_of_run {platform : Platform} {hsize : ClientId.zephyr.length ≤ size}
    {store : σ} {as : List Step} {d : Device size σ}
    (run : (settingsSystem platform hsize store).Run as d) :
    Refines d (Memory.after platform size store as) := by
  apply run.invariant (I := fun as d => Refines d (Memory.after platform size store as))
  · exact ⟨values_boot hsize, rfl⟩
  · intro as a d d' _ h hstep
    cases hstep
    unfold Memory.after
    rw [List.foldl_append]
    exact h.next platform hsize a

/--
After any commands, failed saves and reboots of a device with any backend, the
thread uses the volatile values of the memory, and the next boot uses its
durable ones as far as they can be read.
-/
theorem settings_kept {platform : Platform} {hsize : ClientId.zephyr.length ≤ size}
    {store : σ} {as : List Step} {d : Device size σ}
    (run : (settingsSystem platform hsize store).Run as d) :
    d.globals.values = (Memory.after platform size store as).volatile ∧
      forall rets, (d.reboot hsize rets).globals.values =
        ((Memory.after platform size store as).reboot rets).volatile := by
  have hrefines := refines_of_run run
  constructor
  · exact hrefines.volatile
  · intro rets
    have hvalues := values_reboot hsize d rets (Memory.after platform size store as).volatile
    rw [hrefines.durable] at hvalues
    exact hvalues

end

theorem zephyr_fits : ClientId.zephyr.length ≤ 23 := by
  decide

def zeroPlatform : Platform where
  inetPton text := if text = [0x3A, 0x3A] then some .zero else none
  einval := false

/-- A port is saved, a client ID is not, and the device is started anew. -/
def portSaved : List Step :=
  [.cmdGatewayPort [[0x31, 0x38, 0x38, 0x33]] true, .cmdClientId [[0x61]] false,
    .reboot fun _ => 0]

theorem after_portSaved :
    (Memory.after zeroPlatform 23 (∅ : Store) portSaved).volatile =
      { gatewayIp := .zero, gatewayPort := 1883, clientId := ClientId.zephyr } := by
  decide +kernel

theorem settings_kept_portSaved :
    exists d : Device 23 Store, (settingsSystem zeroPlatform zephyr_fits (∅ : Store)).Run portSaved d ∧
      d.globals.values =
        { gatewayIp := .zero, gatewayPort := 1883, clientId := ClientId.zephyr } := by
  have hsteps : exists d, (settingsSystem zeroPlatform zephyr_fits (∅ : Store)).steps
      (settingsSystem zeroPlatform zephyr_fits (∅ : Store)).init portSaved = some d := ⟨_, rfl⟩
  rcases hsteps with ⟨d, hsteps⟩
  have run := System.run_of_steps hsteps
  exists d
  constructor
  · exact run
  · exact (settings_kept run).1.trans after_portSaved

end Settings
end Mqttsndev
end Firmware
end Smartmeter
