import Smartmeter.Firmware.MessageCallback
import Smartmeter.Sml.Tlv.Items

/-!
# What is found in a value list

The callback stores two values while it goes over the entries of a list.  Going
over the entries without storing anything gives the list of those that are
decoded, and what is stored is told by that list: a name that was looked for is
the name of at most one entry, and its value is a number that fits.
-/

namespace Smartmeter

open Foundation

/-!
## Programs that succeed on the same bytes
-/

namespace Sml
namespace Tlv
namespace Reading

variable [Machine] {kind : Kind} {α β γ : Type}

/-- Where `p` gives a good result, `q` takes the same bytes and gives a related one. -/
def Mirrors (good : β -> Prop) (R : β -> γ -> Prop) (p : Reading kind β) (q : Reading kind γ) :
    Prop :=
  forall self bs b self' rest, p.act.parse self bs = some ((.ok b, self'), rest) -> good b ->
    exists c, R b c ∧ q.act.parse self bs = some ((.ok c, self'), rest)

namespace Mirrors

variable {good : β -> Prop} {R : β -> γ -> Prop}

theorem pure {b : β} {c : γ} (h : good b -> R b c) :
    Mirrors good R (Pure.pure b : Reading kind β) (Pure.pure c) := by
  intro self bs b' self' rest hparse hgood
  rw [act_pure] at hparse
  cases hparse
  exact ⟨c, h hgood, rfl⟩

theorem fail (e : Error) (q : Reading kind γ) :
    Mirrors good R (Reading.fail e : Reading kind β) q := by
  intro self bs b self' rest hparse _
  cases hparse

theorem bind (p : Reading kind α) {f : α -> Reading kind β} {g : α -> Reading kind γ}
    (h : forall a, Mirrors good R (f a) (g a)) : Mirrors good R (p >>= f) (p >>= g) := by
  intro self bs b self' rest hparse hgood
  rw [act_bind] at hparse
  rcases Act.parse_bind_eq_ok hparse with ⟨a, self₁, mid, hp, hf⟩
  rcases h a self₁ mid b self' rest hf hgood with ⟨c, hR, hg⟩
  exists c
  rw [act_bind, Act.parse_bind_ok hp]
  exact ⟨hR, hg⟩

theorem nextVariant {child : Reading kind β} {child' : Reading kind γ}
    (h : Mirrors good R child child') :
    Mirrors good R (Reading.nextVariant kind child) (Reading.nextVariant kind child') := by
  intro self bs b self' rest hparse hgood
  unfold Reading.nextVariant at hparse
  rw [act_nextAny] at hparse
  rcases Act.parse_bind_eq_ok hparse with ⟨item, self₁, mid, hnext, hwith⟩
  unfold Reading.nextVariant
  rw [act_nextAny, Act.parse_bind_ok hnext]
  cases item with
  | none => cases hwith
  | some item =>
      cases item with
      | none => cases hwith
      | some kind' size =>
          by_cases hkind : kind = kind'
          · subst hkind
            rw [parse_withNext_some, expect_self] at hwith ⊢
            rcases Option.map_eq_some_iff.mp hwith with ⟨⟨⟨r, item⟩, rest'⟩, hchild, heq⟩
            cases heq
            rcases h _ _ b item _ hchild hgood with ⟨c, hR, hchild'⟩
            exists c
            constructor
            · exact hR
            · rw [hchild']
              rfl
          · rw [parse_withNext_some, expect_other child hkind] at hwith
            cases hwith

theorem field {p : Reading .list β} {q : Reading .list γ} (numSkip : Nat)
    (h : Mirrors good R p q) : Mirrors good R (Types.field numSkip p) (Types.field numSkip q) := by
  unfold Types.field
  by_cases hskip : numSkip > 0
  · simp only [if_pos hskip]
    exact .bind _ fun _ => h
  · simp only [if_neg hskip]
    exact h

end Mirrors

theorem parse_lift (p : Read kind β) (self : Handle) (bs : List UInt8) :
    (act (ExceptT.lift p)).parse self bs =
      ((p.run self).parse bs).map fun x => ((.ok x.1.1, x.1.2), x.2) := by
  unfold Act.parse act
  change (((p >>= fun b => Read.done (Except.ok b) : Read kind (Except Error β))).run self).parse
    bs = _
  rw [Read.run_bind, Prog.parse_bind, Option.map_eq_bind]
  rfl

end Reading
end Tlv
end Sml

namespace Firmware

open Sml
open Sml.Tlv (Handle Read Reading)
open Sml.Types

/-!
## The entries that are decoded
-/

/-- The loop over the entries of a value list, without what is stored. -/
def collect : Nat -> Reading .list (List Entry)
  | 0 => ExceptT.mk .stuck
  | n + 1 => do
      match ← SmlList.next Entry.decode with
      | none => pure []
      | some none => collect n
      | some (some entry) => (entry :: ·) <$> collect n

def listEntries [Machine] : Reading .list (List Entry) :=
  MessageBody.read fun variant =>
    match variant with
    | .getListResponse => GetListResponse.valList (collect Machine.fuel)
    | _ => pure []

namespace MessageCallback

variable [Machine]

theorem entries_collect {n : Nat} {self self' : MessageCallback} {item item' : Handle}
    {bs rest : List UInt8}
    (h : ((entries n self).run item).parse bs = some (((.ok (), self'), item'), rest)) :
    exists es, es.foldlM store self = .ok self' ∧
      (collect n).act.parse item bs = some ((.ok es, item'), rest) := by
  induction n generalizing self item bs with
  | zero => cases h
  | succ n ih =>
      unfold entries at h
      rw [Read.run_bind, Prog.parse_bind] at h
      rcases Option.bind_eq_some_iff.mp h with ⟨⟨⟨r, item₁⟩, mid⟩, hnext, hrest⟩
      change (SmlList.next Entry.decode).act.parse item bs = some ((r, item₁), mid) at hnext
      unfold collect
      cases r with
      | error e => cases hrest
      | ok entry? =>
          rw [Reading.act_bind, Act.parse_bind_ok hnext]
          cases entry? with
          | none =>
              cases hrest
              exact ⟨[], rfl, rfl⟩
          | some entry? =>
              cases entry? with
              | none => exact ih hrest
              | some entry =>
                  dsimp only at hrest
                  cases hstore : self.store entry with
                  | error e =>
                      rw [hstore] at hrest
                      cases hrest
                  | ok self₁ =>
                      rw [hstore] at hrest
                      rcases ih hrest with ⟨es, hes, hcollect⟩
                      exists entry :: es
                      constructor
                      · rw [List.foldlM_cons, hstore]
                        exact hes
                      · rw [Reading.act_map, Act.parse_bind_ok hcollect]
                        rfl

theorem messageReceived_listEntries {self self' : MessageCallback} {item item' : Handle}
    {bs rest : List UInt8}
    (h : ((messageReceived self).run item).parse bs = some (((.ok (), self'), item'), rest)) :
    exists es, es.foldlM store self = .ok self' ∧
      listEntries.act.parse item bs = some ((.ok es, item'), rest) := by
  unfold messageReceived at h
  rw [Read.run_bind, Prog.parse_bind] at h
  rcases Option.bind_eq_some_iff.mp h with ⟨⟨⟨r, item₁⟩, mid⟩, hread, hrest⟩
  cases r with
  | error e => cases hrest
  | ok x =>
      cases hrest
      have hmirrors : Reading.Mirrors (fun x => x.1 = .ok ())
          (fun x es => List.foldlM store self es = .ok x.2)
          (MessageBody.read fun variant =>
            match variant with
            | .getListResponse =>
                GetListResponse.valList (ExceptT.lift (entries Machine.fuel self))
            | _ => pure (.ok (), self)) listEntries := by
        unfold listEntries MessageBody.read
        apply Reading.Mirrors.bind
        intro tag
        cases MessageBodyEnum.ofTag tag with
        | none => exact .fail _ _
        | some variant =>
            apply Reading.Mirrors.nextVariant
            have hother : Reading.Mirrors (fun x : Except Error Unit × MessageCallback =>
                x.1 = .ok ()) (fun x es => List.foldlM store self es = .ok x.2)
                (pure (.ok (), self) : Reading .list _) (pure []) := .pure fun _ => rfl
            cases variant with
            | getListResponse =>
                apply Reading.Mirrors.field
                apply Reading.Mirrors.nextVariant
                intro item₀ bs₀ b item₁ rest₀ hparse hok
                rw [Reading.parse_lift] at hparse
                rcases Option.map_eq_some_iff.mp hparse with ⟨⟨⟨x, item₂⟩, rest₁⟩, hentries, heq⟩
                cases heq
                rcases x with ⟨r, s⟩
                change r = .ok () at hok
                rw [hok] at hentries
                exact entries_collect hentries
            | _ => exact hother
      exact hmirrors _ _ _ _ _ hread rfl

/-- Storing what is decoded succeeds where it is stored along the way. -/
theorem collect_entries {n : Nat} {self self' : MessageCallback} {item item' : Handle}
    {bs rest : List UInt8} {es : List Entry} (hstore : es.foldlM store self = .ok self')
    (h : (collect n).act.parse item bs = some ((.ok es, item'), rest)) :
    ((entries n self).run item).parse bs = some (((.ok (), self'), item'), rest) := by
  induction n generalizing self item bs es with
  | zero => cases h
  | succ n ih =>
      unfold collect at h
      rw [Reading.act_bind] at h
      rcases Act.parse_bind_eq_ok h with ⟨found, item₁, mid, hnext, hrest⟩
      have hnext' : (Read.run (SmlList.next Entry.decode).run item).parse bs =
          some ((.ok found, item₁), mid) := hnext
      unfold entries
      rw [Read.run_bind, Prog.parse_bind, hnext']
      cases found with
      | none =>
          cases hrest
          cases hstore
          rfl
      | some entry? =>
          cases entry? with
          | none => exact ih hstore hrest
          | some entry =>
              dsimp only at hrest
              rw [Reading.act_map] at hrest
              rcases Act.parse_bind_eq_ok hrest with ⟨es', item₂, mid', hcollect, hret⟩
              cases hret
              rw [List.foldlM_cons] at hstore
              cases hentry : self.store entry with
              | error e =>
                  rw [hentry] at hstore
                  cases hstore
              | ok self₁ =>
                  rw [hentry] at hstore
                  dsimp only [Option.bind_some]
                  rw [hentry]
                  exact ih hstore hcollect

theorem listEntries_messageReceived {self self' : MessageCallback} {item item' : Handle}
    {bs rest : List UInt8} {es : List Entry} (hstore : es.foldlM store self = .ok self')
    (h : listEntries.act.parse item bs = some ((.ok es, item'), rest)) :
    ((messageReceived self).run item).parse bs = some (((.ok (), self'), item'), rest) := by
  have hmirrors : Reading.Mirrors (fun es => es.foldlM store self = .ok self')
      (fun _ x => x = (.ok (), self')) listEntries
      (MessageBody.read fun variant =>
        match variant with
        | .getListResponse =>
            GetListResponse.valList (ExceptT.lift (entries Machine.fuel self))
        | _ => pure (.ok (), self)) := by
    unfold listEntries MessageBody.read
    apply Reading.Mirrors.bind
    intro tag
    cases MessageBodyEnum.ofTag tag with
    | none => exact .fail _ _
    | some variant =>
        apply Reading.Mirrors.nextVariant
        have hother : Reading.Mirrors (fun es => List.foldlM store self es = .ok self')
            (fun _ (x : Except Error Unit × MessageCallback) => x = (.ok (), self'))
            (pure [] : Reading .list _) (pure (.ok (), self)) := by
          apply Reading.Mirrors.pure
          intro hnil
          cases hnil
          rfl
        cases variant with
        | getListResponse =>
            apply Reading.Mirrors.field
            apply Reading.Mirrors.nextVariant
            intro item₀ bs₀ es₀ item₁ rest₀ hparse hes
            refine ⟨_, rfl, ?_⟩
            rw [Reading.parse_lift, collect_entries hes hparse]
            rfl
        | _ => exact hother
  rcases hmirrors _ _ _ _ _ h hstore with ⟨x, rfl, hparse⟩
  unfold messageReceived
  rw [Read.run_bind, Prog.parse_bind]
  change (Prog.parse _ bs).bind _ = _
  unfold Act.parse at hparse
  exact congrArg (fun y => Option.bind y _) hparse

end MessageCallback

/-!
## What is stored of them
-/

def Entry.Holds (entry : Entry) (value : Value) : Prop :=
  entry.scaler = value.scaler ∧ entry.value.intoI128Relaxed = .ok (value.value : Int) ∧
    value.value < 2 ^ 64

theorem Entry.value64_eq_ok {entry : Entry} {n : Nat} :
    entry.value64 = .ok n <-> entry.Holds { scaler := entry.scaler, value := n } := by
  unfold Entry.value64 Entry.Holds
  cases hvalue : entry.value.intoI128Relaxed with
  | error e =>
      constructor
      · intro h
        cases h
      · intro h
        cases h.2.1
  | ok v =>
      dsimp only
      constructor
      · intro h
        split at h
        · next hfits =>
            injection h with h
            rw [← h, Int.toNat_of_nonneg hfits.1]
            exact ⟨rfl, rfl, by lia⟩
        · cases h
      · intro h
        rcases h with ⟨_, hv, hlt⟩
        injection hv with hv
        rw [if_pos (by lia), hv, Int.toNat_natCast]

theorem Entry.Holds.eq {entry : Entry} {value : Value} (h : entry.Holds value) :
    value = { scaler := entry.scaler, value := value.value } := by
  rw [h.1]

inductive Found (name : List UInt8) (es : List Entry) : Option Value -> Prop where
  | none (h : forall e, e ∈ es -> e.objName ≠ name) : Found name es none
  | some {before after : List Entry} {entry : Entry} {value : Value}
      (hes : es = before ++ entry :: after) (hname : entry.objName = name)
      (hbefore : forall e, e ∈ before -> e.objName ≠ name)
      (hafter : forall e, e ∈ after -> e.objName ≠ name) (hvalue : entry.Holds value) :
      Found name es (some value)

def Continues (name : List UInt8) (es : List Entry) : Option Value -> Option Value -> Prop
  | none, value => Found name es value
  | some found, value => (forall e, e ∈ es -> e.objName ≠ name) ∧ value = some found

theorem Continues.nil {name : List UInt8} {found value : Option Value} :
    Continues name [] found value <-> value = found := by
  cases found with
  | some v => simp [Continues]
  | none =>
      constructor
      · intro h
        cases h with
        | none _ => rfl
        | some hes _ _ _ _ => simp at hes
      · intro h
        rw [h]
        exact .none fun e he => absurd he List.not_mem_nil

theorem Continues.other {name : List UInt8} {entry : Entry} {es : List Entry}
    (hname : entry.objName ≠ name) {found value : Option Value} :
    Continues name (entry :: es) found value <-> Continues name es found value := by
  cases found with
  | some v => simp [Continues, hname]
  | none =>
      constructor
      · intro h
        cases h with
        | none h => exact .none fun e he => h e (List.mem_cons_of_mem entry he)
        | @some before after entry' value hes hname' hbefore hafter hvalue =>
            cases before with
            | nil =>
                injection hes with hentry _
                rw [hentry] at hname
                exact absurd hname' hname
            | cons e before =>
                injection hes with _ hes
                exact .some hes hname'
                  (fun e' he' => hbefore e' (List.mem_cons_of_mem e he')) hafter hvalue
      · intro h
        cases h with
        | none h => exact .none (List.forall_mem_cons.mpr ⟨hname, h⟩)
        | some hes hname' hbefore hafter hvalue =>
            exact .some (congrArg (entry :: ·) hes) hname'
              (List.forall_mem_cons.mpr ⟨hname, hbefore⟩) hafter hvalue

theorem Continues.same {name : List UInt8} {entry : Entry} {es : List Entry}
    (hname : entry.objName = name) {found value : Option Value} :
    Continues name (entry :: es) found value <->
      found = none ∧ exists v, entry.Holds v ∧ Continues name es (some v) value := by
  cases found with
  | some v =>
      constructor
      · intro h
        exact absurd hname (h.1 entry List.mem_cons_self)
      · intro h
        cases h.1
  | none =>
      constructor
      · intro h
        cases h with
        | none h => exact absurd hname (h entry List.mem_cons_self)
        | @some before after entry' value hes hname' hbefore hafter hvalue =>
            cases before with
            | nil =>
                injection hes with hentry hes
                rw [hentry, hes]
                exact ⟨rfl, value, hvalue, hafter, rfl⟩
            | cons e before =>
                injection hes with hentry _
                rw [hentry] at hname
                exact absurd hname (hbefore e List.mem_cons_self)
      · intro h
        rcases h with ⟨_, v, hv, hes, hvalue⟩
        rw [hvalue]
        exact .some (List.nil_append _).symm hname (fun e he => absurd he List.not_mem_nil) hes hv

namespace MessageCallback

theorem obisActivePower_ne : obisActivePower ≠ obisActiveEnergy := by decide

theorem value64_once {entry : Entry} {found : Option Value} {α : Type} {k : Nat -> α} {a : α} :
    (do
      let value ← entry.value64
      if found.isSome then .error .unexpectedValue else pure (k value) : Except Error α) = .ok a <->
      found = none ∧ exists v, entry.Holds v ∧ a = k v.value := by
  cases hvalue : entry.value64 with
  | error e =>
      constructor
      · intro h
        cases h
      · intro h
        rcases h with ⟨_, v, hv, _⟩
        rw [hv.eq] at hv
        rw [Entry.value64_eq_ok.mpr hv] at hvalue
        cases hvalue
  | ok n =>
      have hn := Entry.value64_eq_ok.mp hvalue
      cases found with
      | some v =>
          constructor
          · intro h
            cases h
          · intro h
            cases h.1
      | none =>
          constructor
          · intro h
            cases h
            exact ⟨rfl, _, hn, rfl⟩
          · intro h
            rcases h with ⟨_, v, hv, ha⟩
            rw [hv.eq] at hv
            rw [Entry.value64_eq_ok.mpr hv] at hvalue
            injection hvalue with hvalue
            rw [ha, hvalue]
            rfl

theorem bind_eq_ok {α β : Type} {x : Except Error α} {f : α -> Except Error β} {b : β} :
    (x >>= f) = .ok b <-> exists a, x = .ok a ∧ f a = .ok b := by
  cases x with
  | error e =>
      constructor
      · intro h
        cases h
      · intro h
        rcases h with ⟨_, h, _⟩
        cases h
  | ok a =>
      constructor
      · intro h
        exact ⟨a, rfl, h⟩
      · intro h
        rcases h with ⟨_, h, hf⟩
        cases h
        exact hf

theorem foldlM_store {es : List Entry} {self self' : MessageCallback} :
    es.foldlM store self = .ok self' <->
      Continues obisActivePower es self.activePower self'.activePower ∧
        Continues obisActiveEnergy es self.activeEnergy self'.activeEnergy := by
  induction es generalizing self with
  | nil =>
      rw [Continues.nil, Continues.nil]
      rcases self with ⟨power, energy⟩
      rcases self' with ⟨power', energy'⟩
      constructor
      · intro h
        cases h
        exact ⟨rfl, rfl⟩
      · intro h
        rcases h with ⟨hpower, henergy⟩
        cases hpower
        cases henergy
        rfl
  | cons entry es ih =>
      rw [List.foldlM_cons, bind_eq_ok]
      by_cases hpower : entry.objName = obisActivePower
      · have henergy : entry.objName ≠ obisActiveEnergy := by
          rw [hpower]
          exact obisActivePower_ne
        have hstore : self.store entry = _ := if_pos hpower
        rw [Continues.same hpower, Continues.other henergy, hstore]
        constructor
        · intro h
          rcases h with ⟨self₁, hself₁, hes⟩
          rcases value64_once.mp hself₁ with ⟨hnone, v, hv, hself⟩
          rw [hself, ih] at hes
          rw [hv.eq] at hv
          exact ⟨⟨hnone, _, hv, hes.1⟩, hes.2⟩
        · intro h
          rcases h with ⟨⟨hnone, v, hv, hpower'⟩, henergy'⟩
          refine ⟨_, value64_once.mpr ⟨hnone, v, hv, rfl⟩, ih.mpr ⟨?_, henergy'⟩⟩
          rw [hv.eq] at hpower'
          exact hpower'
      · rw [Continues.other hpower]
        by_cases henergy : entry.objName = obisActiveEnergy
        · have hstore : self.store entry = _ := (if_neg hpower).trans (if_pos henergy)
          rw [Continues.same henergy, hstore]
          constructor
          · intro h
            rcases h with ⟨self₁, hself₁, hes⟩
            rcases value64_once.mp hself₁ with ⟨hnone, v, hv, hself⟩
            rw [hself, ih] at hes
            rw [hv.eq] at hv
            exact ⟨hes.1, hnone, _, hv, hes.2⟩
          · intro h
            rcases h with ⟨hpower', hnone, v, hv, henergy'⟩
            refine ⟨_, value64_once.mpr ⟨hnone, v, hv, rfl⟩, ih.mpr ⟨hpower', ?_⟩⟩
            rw [hv.eq] at henergy'
            exact henergy'
        · have hstore : self.store entry = .ok self := (if_neg hpower).trans (if_neg henergy)
          rw [Continues.other henergy, hstore]
          constructor
          · intro h
            rcases h with ⟨self₁, hself, hes⟩
            cases hself
            exact ih.mp hes
          · intro h
            exact ⟨self, rfl, ih.mpr h⟩

end MessageCallback

end Firmware
end Smartmeter
