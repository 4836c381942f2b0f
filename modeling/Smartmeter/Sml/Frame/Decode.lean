import Smartmeter.Sml.Frame.CheckingReader

/-!
# What a frame delivers

The decoder reads the whole byte string at once.  Every payload byte comes with
the bytes that are left of the source when the byte is handed out, so the
decoder also says how far the source has been read at any point.
-/

namespace Smartmeter
namespace Sml
namespace Frame

open Foundation

/-- How a frame ends, with the bytes of the source behind its end. -/
inductive Ending where
  | success (rest : List UInt8)
  | failure (e : Io.Error) (rest : List UInt8)
  | starved
deriving DecidableEq

namespace Ending

def isSuccess : Ending -> Bool
  | .success _ => true
  | _ => false

end Ending

structure Decoded where
  pend : List (UInt8 × List UInt8)
  ending : Ending
deriving DecidableEq

namespace Decoded

def prepend (held rest : List UInt8) (d : Decoded) : Decoded :=
  { d with pend := held.map (fun b => (b, rest)) ++ d.pend }

end Decoded

section

variable {δ : Type} [Digest δ]

def decodeFooter (held : List UInt8) (digest : δ) (num c0 c1 : UInt8)
    (rest : List UInt8) : Decoded :=
  if c0.toNat + 256 * c1.toNat =
        (Digest.finalize (Digest.update digest [0x1A, num])).toNat ∧
      num.toNat ≤ 3 ∧ num.toNat ≤ held.length then
    { pend := (held.take (held.length - num.toNat)).map fun b => (b, rest)
      ending := .success rest }
  else { pend := [], ending := .failure .unknown rest }

/--
The decoder in front of a group: `held` is the group held back, and
`inEsc` says that an escape sequence precedes.
-/
def decode (inEsc : Bool) (held : List UInt8) (digest : δ) : List UInt8 -> Decoded
  | a :: b :: c :: d :: rest =>
      let group := [a, b, c, d]
      if inEsc then
        if group = escape then
          (decode false group (Digest.update digest group) rest).prepend held rest
        else if a = 0x1A then decodeFooter held digest b c d rest
        else { pend := [], ending := .failure .unimplemented rest }
      else if group = escape then
        decode true held (Digest.update digest group) rest
      else
        (decode false group (Digest.update digest group) rest).prepend held rest
  | _ => { pend := [], ending := .starved }

def decodeFrame (δ : Type) [Digest δ] (s : List UInt8) : Decoded :=
  decode false [] (Digest.update (Digest.digest : δ) startMarker) s

theorem decode_short (inEsc : Bool) (held : List UInt8) (digest : δ)
    {s : List UInt8} (h : s.length < 4) :
    decode inEsc held digest s = { pend := [], ending := .starved } := by
  match s, h with
  | [], _ => rfl
  | [_], _ => rfl
  | [_, _], _ => rfl
  | [_, _, _], _ => rfl
  | _ :: _ :: _ :: _ :: _, h =>
      simp only [List.length_cons] at h
      lia

theorem decode_data {held group : List UInt8} {digest : δ} (rest : List UInt8)
    (hlen : group.length = 4) (hne : group ≠ escape) :
    decode false held digest (group ++ rest) =
      (decode false group (Digest.update digest group) rest).prepend held rest := by
  match group, hlen with
  | [a, b, c, d], _ =>
      show decode false held digest (a :: b :: c :: d :: rest) = _
      rw [decode, if_neg Bool.false_ne_true, if_neg hne]

theorem decode_escape {held : List UInt8} {digest : δ} (rest : List UInt8) :
    decode false held digest (escape ++ rest) =
      decode true held (Digest.update digest escape) rest := by
  show decode false held digest (0x1B :: 0x1B :: 0x1B :: 0x1B :: rest) = _
  rw [decode, if_neg Bool.false_ne_true,
    if_pos (show [0x1B, 0x1B, 0x1B, 0x1B] = escape from rfl)]
  rfl

theorem decode_escaped {held : List UInt8} {digest : δ} (rest : List UInt8) :
    decode true held digest (escape ++ rest) =
      (decode false escape (Digest.update digest escape) rest).prepend held rest := by
  show decode true held digest (0x1B :: 0x1B :: 0x1B :: 0x1B :: rest) = _
  rw [decode, if_pos rfl,
    if_pos (show [0x1B, 0x1B, 0x1B, 0x1B] = escape from rfl)]
  rfl

theorem decode_footer {held : List UInt8} {digest : δ} (num c0 c1 : UInt8)
    (rest : List UInt8) :
    decode true held digest ([0x1A, num, c0, c1] ++ rest) =
      decodeFooter held digest num c0 c1 rest := by
  show decode true held digest (0x1A :: num :: c0 :: c1 :: rest) = _
  rw [decode, if_pos rfl, if_neg (by simp [escape]), if_pos rfl]

theorem decode_unknown {held group : List UInt8} {digest : δ} (rest : List UInt8)
    (hlen : group.length = 4) (hne : group ≠ escape)
    (hfoot : forall num c0 c1, group ≠ [0x1A, num, c0, c1]) :
    decode true held digest (group ++ rest) =
      { pend := [], ending := .failure .unimplemented rest } := by
  match group, hlen with
  | [a, b, c, d], _ =>
      have ha : a ≠ 0x1A := by
        intro ha
        exact hfoot b c d (by rw [ha])
      show decode true held digest (a :: b :: c :: d :: rest) = _
      rw [decode, if_pos rfl, if_neg hne, if_neg ha]

theorem decode_pend_ne_nil {held : List UInt8} (hheld : held.length = 4)
    {s : List UInt8} {inEsc : Bool} {digest : δ}
    (hend : (decode inEsc held digest s).ending.isSuccess = true) :
    (decode inEsc held digest s).pend ≠ [] := by
  have hne : held ≠ [] := by
    intro h
    rw [h] at hheld
    cases hheld
  match s with
  | a :: b :: c :: d :: rest =>
      have hprepend : forall x : Decoded, (x.prepend held rest).pend ≠ [] := by
        intro x hx
        exact hne (List.map_eq_nil_iff.mp (List.append_eq_nil_iff.mp hx).1)
      rw [decode] at hend ⊢
      cases inEsc with
      | true =>
          rw [if_pos rfl] at hend ⊢
          by_cases hesc : [a, b, c, d] = escape
          · rw [if_pos hesc]
            exact hprepend _
          · rw [if_neg hesc] at hend ⊢
            by_cases ha : a = 0x1A
            · rw [if_pos ha] at hend ⊢
              unfold decodeFooter at hend ⊢
              by_cases hok : c.toNat + 256 * d.toNat =
                    (Digest.finalize (Digest.update digest [0x1A, b])).toNat ∧
                  b.toNat ≤ 3 ∧ b.toNat ≤ held.length
              · rw [if_pos hok]
                intro hnil
                have hlen := congrArg List.length hnil
                simp only [List.length_map, List.length_take, List.length_nil,
                  hheld] at hlen
                lia
              · rw [if_neg hok] at hend
                cases hend
            · rw [if_neg ha] at hend
              cases hend
      | false =>
          rw [if_neg Bool.false_ne_true] at hend ⊢
          by_cases hesc : [a, b, c, d] = escape
          · rw [if_pos hesc] at hend ⊢
            exact decode_pend_ne_nil hheld hend
          · rw [if_neg hesc]
            exact hprepend _
  | [] => cases hend
  | [_] => cases hend
  | [_, _] => cases hend
  | [_, _, _] => cases hend

theorem decode_pend_length (inEsc : Bool) (held : List UInt8) (digest : δ) (s : List UInt8) :
    (decode inEsc held digest s).pend.length ≤ held.length + s.length := by
  match s with
  | a :: b :: c :: d :: rest =>
      have hprepend : forall x : Decoded, x.pend.length ≤ 4 + rest.length ->
          (x.prepend held rest).pend.length ≤ held.length + (rest.length + 4) := by
        intro x hx
        unfold Decoded.prepend
        rw [List.length_append, List.length_map]
        lia
      rw [decode]
      simp only [List.length_cons]
      cases inEsc with
      | true =>
          rw [if_pos rfl]
          split
          · exact hprepend _ (decode_pend_length false [a, b, c, d] _ rest)
          · split
            · unfold decodeFooter
              split
              · rw [List.length_map, List.length_take]
                lia
              · exact Nat.zero_le _
            · exact Nat.zero_le _
      | false =>
          rw [if_neg Bool.false_ne_true]
          split
          · have hrest := decode_pend_length true held (Digest.update digest [a, b, c, d]) rest
            lia
          · exact hprepend _ (decode_pend_length false [a, b, c, d] _ rest)
  | [] => exact Nat.zero_le _
  | [_] => exact Nat.zero_le _
  | [_, _] => exact Nat.zero_le _
  | [_, _, _] => exact Nat.zero_le _

end

/-!
## Reading what is delivered
-/

/-- What a frame reader has still to deliver, and where its source stands. -/
structure Feed where
  pend : List (UInt8 × List UInt8)
  ending : Ending
  ended : Bool
  unread : List UInt8
deriving DecidableEq

namespace Feed

def bytes (f : Feed) : List UInt8 := f.pend.map Prod.fst

/-- The source bytes left after the next `n` payload bytes. -/
def unreadAfter (f : Feed) (n : Nat) : List UInt8 :=
  (((f.pend.take n).map Prod.snd).getLast?).getD f.unread

/-- Deliver `n` bytes; a frame that ends well ends with its last byte. -/
def advance (n : Nat) (f : Feed) : Feed :=
  if n = 0 then f else
  { pend := f.pend.drop n
    ending := f.ending
    ended := (f.pend.drop n).isEmpty && f.ending.isSuccess
    unread := f.unreadAfter n }

def spent (rest : List UInt8) : Feed :=
  { pend := [], ending := .success rest, ended := true, unread := rest }

def Same (f g : Feed) : Prop :=
  f.pend = g.pend ∧ f.ending = g.ending

theorem Same.refl (f : Feed) : f.Same f := ⟨rfl, rfl⟩

theorem Same.symm {f g : Feed} (h : f.Same g) : g.Same f :=
  ⟨h.1.symm, h.2.symm⟩

theorem Same.trans {f g h : Feed} (hfg : f.Same g) (hgh : g.Same h) : f.Same h :=
  ⟨hfg.1.trans hgh.1, hfg.2.trans hgh.2⟩

theorem advance_zero (f : Feed) : f.advance 0 = f := if_pos rfl

theorem advance_pos {n : Nat} (hn : n ≠ 0) (f : Feed) :
    f.advance n =
      { pend := f.pend.drop n
        ending := f.ending
        ended := (f.pend.drop n).isEmpty && f.ending.isSuccess
        unread := f.unreadAfter n } :=
  if_neg hn

@[simp] theorem advance_pend (n : Nat) (f : Feed) :
    (f.advance n).pend = f.pend.drop n := by
  unfold advance
  split
  · next h => rw [h, List.drop_zero]
  · rfl

@[simp] theorem advance_ending (n : Nat) (f : Feed) :
    (f.advance n).ending = f.ending := by
  unfold advance
  split <;> rfl

@[simp] theorem advance_bytes (n : Nat) (f : Feed) :
    (f.advance n).bytes = f.bytes.drop n := by
  simp only [bytes, advance_pend, List.map_drop]

theorem bytes_length (f : Feed) : f.bytes.length = f.pend.length :=
  List.length_map _

theorem Same.advance {f g : Feed} (h : f.Same g) {n : Nat} (hn : n ≠ 0)
    (hle : n ≤ f.pend.length) : f.advance n = g.advance n := by
  have hunread : f.unreadAfter n = g.unreadAfter n := by
    unfold unreadAfter
    rw [← h.1]
    cases hlast : ((f.pend.take n).map Prod.snd).getLast? with
    | some r => rfl
    | none =>
        have hlen := congrArg List.length (List.getLast?_eq_none_iff.mp hlast)
        rw [List.length_map, List.length_take, List.length_nil] at hlen
        lia
  rw [advance_pos hn, advance_pos hn, hunread, h.1, h.2]

theorem advance_add {m n : Nat} {f : Feed} (h : m + n ≤ f.pend.length) :
    (f.advance m).advance n = f.advance (m + n) := by
  by_cases hm : m = 0
  · rw [hm, advance_zero, Nat.zero_add]
  · by_cases hn : n = 0
    · rw [hn, advance_zero, Nat.add_zero]
    · have hmn : m + n ≠ 0 := by lia
      have hunread : (f.advance m).unreadAfter n = f.unreadAfter (m + n) := by
        unfold unreadAfter
        rw [advance_pend, List.take_add, List.map_append,
          List.getLast?_append]
        cases hlast : (((f.pend.drop m).take n).map Prod.snd).getLast? with
        | some r => rfl
        | none =>
            have hlen := congrArg List.length (List.getLast?_eq_none_iff.mp hlast)
            rw [List.length_map, List.length_take, List.length_drop,
              List.length_nil] at hlen
            lia
      rw [advance_pos hn, advance_pos hmn, hunread, advance_pend,
        advance_ending, List.drop_drop]

end Feed

end Frame
end Sml
end Smartmeter
