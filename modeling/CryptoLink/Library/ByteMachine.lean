import Mathlib

/-!
# A stack machine over bytes

One frame of the machine contracts are compiled for: its code is a list of bytes,
and what it does to the world it does by running the code of others on its own
state. How much gas there is is up to the surroundings, so a frame may fail before
any of its instructions.
-/

namespace ByteMachine

abbrev Bytes := List UInt8

/-- The number the bytes are, the first being the highest. -/
def wordOf (bs : Bytes) : ℕ := bs.foldl (fun n b => 256 * n + b.toNat) 0

/-- The lowest `n` bytes of a number. -/
def bytesOf : ℕ → ℕ → Bytes
  | 0, _ => []
  | n + 1, x => bytesOf n (x / 256) ++ [UInt8.ofNat x]

/-- `size` bytes from an offset on; behind the end there are zeros. -/
def window (bs : Bytes) (offset size : ℕ) : Bytes :=
  (bs.drop offset ++ List.replicate size 0).take size

abbrev Memory := ℕ → UInt8

namespace Memory

def slice (m : Memory) (offset size : ℕ) : Bytes := (List.range size).map fun i => m (offset + i)

def store (m : Memory) (offset : ℕ) (bs : Bytes) : Memory := fun i =>
  if offset ≤ i ∧ i < offset + bs.length then bs.getD (i - offset) 0 else m i

end Memory

inductive Instruction where
  | stop
  | callDataSize
  | callDataCopy
  | codeCopy
  | returnDataSize
  | returnDataCopy
  | jumpIf
  | gas
  | jumpDest
  | push (bytes : Bytes)
  | dup (n : ℕ)
  | swap (n : ℕ)
  | ret
  | delegateCall
  | revert
  | invalid
  deriving DecidableEq, Repr

/-- How many bytes behind the instruction belong to it. -/
def pushed (op : UInt8) : ℕ :=
  if 0x60 ≤ op ∧ op ≤ 0x7f then op.toNat - 0x5f else 0

/-- The instruction at a place of the code, as far as this machine knows it. Behind
the end everything stops. -/
def decode (code : Bytes) (pc : ℕ) : Instruction :=
  match code.drop pc with
  | [] => .stop
  | op :: rest =>
    if 0 < pushed op then .push (window rest 0 (pushed op))
    else if 0x80 ≤ op ∧ op ≤ 0x8f then .dup (op.toNat - 0x80)
    else if 0x90 ≤ op ∧ op ≤ 0x9f then .swap (op.toNat - 0x90)
    else if op = 0x00 then .stop
    else if op = 0x36 then .callDataSize
    else if op = 0x37 then .callDataCopy
    else if op = 0x39 then .codeCopy
    else if op = 0x3d then .returnDataSize
    else if op = 0x3e then .returnDataCopy
    else if op = 0x57 then .jumpIf
    else if op = 0x5a then .gas
    else if op = 0x5b then .jumpDest
    else if op = 0xf3 then .ret
    else if op = 0xf4 then .delegateCall
    else if op = 0xfd then .revert
    else .invalid

/-- The places a jump may lead to; `skip` bytes belong to the instruction before. -/
def destinations : (skip place : ℕ) → Bytes → List ℕ
  | _, _, [] => []
  | skip + 1, place, _ :: rest => destinations skip (place + 1) rest
  | 0, place, op :: rest =>
      if op = 0x5b then place :: destinations (pushed op) (place + 1) rest
      else destinations (pushed op) (place + 1) rest

variable {W : Type}

/-- What runs, and what it runs in. `delegate` is the code of another account, run
with so much gas and on the input. -/
structure Frame (W : Type) where
  code : Bytes
  callData : Bytes
  delegate : (gas address : ℕ) → Bytes → W → Bool × Bytes × W
  gasLeft : ℕ → ℕ
  exhausted : ℕ → Bool

structure State (W : Type) where
  pc : ℕ
  stack : List ℕ
  memory : Memory
  returnData : Bytes
  world : W
  steps : ℕ

/-- A frame that reverts or fails leaves nothing behind but what it says. -/
inductive Outcome (W : Type) where
  | returned (data : Bytes) (world : W)
  | reverted (data : Bytes)
  | failed

def stackLimit : ℕ := 1024

namespace Frame

variable (F : Frame W)

def start (w : W) : State W := ⟨0, [], fun _ => 0, [], w, 0⟩

/-- On to the next instruction, `size` bytes further, with another stack. -/
def next (s : State W) (size : ℕ) (stack : List ℕ) : State W ⊕ Outcome W :=
  if stackLimit < stack.length then .inr .failed
  else .inl { s with pc := s.pc + size, stack := stack, steps := s.steps + 1 }

def write (s : State W) (offset : ℕ) (bs : Bytes) (stack : List ℕ) : State W ⊕ Outcome W :=
  next { s with memory := s.memory.store offset bs } 1 stack

def execute (s : State W) : Instruction → State W ⊕ Outcome W
  | .stop => .inr (.returned [] s.world)
  | .callDataSize => next s 1 (F.callData.length :: s.stack)
  | .callDataCopy =>
      match s.stack with
      | target :: offset :: size :: rest => write s target (window F.callData offset size) rest
      | _ => .inr .failed
  | .codeCopy =>
      match s.stack with
      | target :: offset :: size :: rest => write s target (window F.code offset size) rest
      | _ => .inr .failed
  | .returnDataSize => next s 1 (s.returnData.length :: s.stack)
  | .returnDataCopy =>
      match s.stack with
      | target :: offset :: size :: rest =>
          if s.returnData.length < offset + size then .inr .failed
          else write s target (window s.returnData offset size) rest
      | _ => .inr .failed
  | .jumpIf =>
      match s.stack with
      | target :: condition :: rest =>
          if condition = 0 then next s 1 rest
          else if target ∈ destinations 0 0 F.code then
            .inl { s with pc := target, stack := rest, steps := s.steps + 1 }
          else .inr .failed
      | _ => .inr .failed
  | .gas => next s 1 (F.gasLeft s.steps :: s.stack)
  | .jumpDest => next s 1 s.stack
  | .push bytes => next s (1 + bytes.length) (wordOf bytes :: s.stack)
  | .dup n =>
      match s.stack[n]? with
      | some x => next s 1 (x :: s.stack)
      | none => .inr .failed
  | .swap n =>
      match s.stack, s.stack[n + 1]? with
      | x :: _, some y => next s 1 ((s.stack.set (n + 1) x).set 0 y)
      | _, _ => .inr .failed
  | .ret =>
      match s.stack with
      | offset :: size :: _ => .inr (.returned (s.memory.slice offset size) s.world)
      | _ => .inr .failed
  | .delegateCall =>
      match s.stack with
      | gas :: address :: offset :: size :: target :: space :: rest =>
          let answer := F.delegate gas (address % 2 ^ 160) (s.memory.slice offset size) s.world
          write { s with
            returnData := answer.2.1
            world := if answer.1 then answer.2.2 else s.world }
            target (answer.2.1.take space) ((if answer.1 then 1 else 0) :: rest)
      | _ => .inr .failed
  | .revert =>
      match s.stack with
      | offset :: size :: _ => .inr (.reverted (s.memory.slice offset size))
      | _ => .inr .failed
  | .invalid => .inr .failed

def step (s : State W) : State W ⊕ Outcome W :=
  if F.exhausted s.steps then .inr .failed else F.execute s (decode F.code s.pc)

/-- The outcome, if the frame is over within `fuel` instructions. -/
def run : ℕ → State W → Option (Outcome W)
  | 0, _ => none
  | fuel + 1, s =>
      match F.step s with
      | .inl s' => run fuel s'
      | .inr o => some o

/-- The frame comes to its end with this outcome. -/
def Ends (w : W) (o : Outcome W) : Prop := ∃ fuel, F.run fuel (start w) = some o

/-- The same frame with as much gas as it takes. -/
def paid : Frame W := { F with exhausted := fun _ => false }

end Frame

theorem length_bytesOf (n x : ℕ) : (bytesOf n x).length = n := by
  induction n generalizing x with
  | zero => rfl
  | succ n ih => rw [bytesOf, List.length_append, ih, List.length_singleton]

theorem wordOf_append (bs : Bytes) (b : UInt8) :
    wordOf (bs ++ [b]) = 256 * wordOf bs + b.toNat := by
  rw [wordOf, List.foldl_append]
  rfl

theorem wordOf_bytesOf (n x : ℕ) : wordOf (bytesOf n x) = x % 256 ^ n := by
  induction n generalizing x with
  | zero => rw [Nat.pow_zero, Nat.mod_one, bytesOf]; rfl
  | succ n ih =>
    have hlow : (UInt8.ofNat x).toNat = x % 256 := rfl
    rw [bytesOf, wordOf_append, ih, hlow, Nat.pow_succ, Nat.mul_comm (256 ^ n), Nat.mod_mul]
    omega

/-- A number that is shifted by whole bytes has zeros behind its bytes. -/
theorem bytesOf_shift (m n x : ℕ) :
    bytesOf (m + n) (x * 256 ^ n) = bytesOf m x ++ List.replicate n 0 := by
  induction n with
  | zero => rw [Nat.pow_zero, Nat.mul_one, Nat.add_zero, List.replicate_zero, List.append_nil]
  | succ n ih =>
    have hshift : x * 256 ^ (n + 1) = x * 256 ^ n * 256 := by
      rw [Nat.pow_succ, Nat.mul_assoc]
    have hlow : UInt8.ofNat (x * 256 ^ n * 256) = 0 := by
      apply UInt8.toNat_inj.mp
      show x * 256 ^ n * 256 % 256 = 0
      exact Nat.mul_mod_left _ _
    rw [hshift, ← Nat.add_assoc, bytesOf, Nat.mul_div_cancel _ (by decide), ih, hlow,
      List.replicate_succ', List.append_assoc]

theorem take_bytesOf_shift (m n x : ℕ) : (bytesOf (m + n) (x * 256 ^ n)).take m = bytesOf m x := by
  rw [bytesOf_shift]
  exact List.take_left' (length_bytesOf m x)

theorem window_self (bs : Bytes) : window bs 0 bs.length = bs := by
  rw [window, List.drop_zero]
  exact List.take_left

theorem window_append (front bs : Bytes) :
    window (front ++ bs) front.length bs.length = bs := by
  rw [window, List.drop_left]
  exact List.take_left

theorem window_front {bs : Bytes} {n : ℕ} (h : bs.length = n) (rest : Bytes) :
    window (bs ++ rest) 0 n = bs := by
  rw [window, List.drop_zero, List.append_assoc]
  exact List.take_left' h

namespace Memory

variable (m : Memory)

theorem slice_add (offset a b : ℕ) :
    m.slice offset (a + b) = m.slice offset a ++ m.slice (offset + a) b := by
  rw [slice, slice, slice, List.range_add, List.map_append, List.map_map]
  congr 1
  apply List.map_congr_left
  intro i _
  rw [Function.comp_apply, Nat.add_assoc]

/-- What was stored is read again, as far as it is read. -/
theorem slice_store (offset : ℕ) {bs : Bytes} {n : ℕ} (h : n ≤ bs.length) :
    (m.store offset bs).slice offset n = bs.take n := by
  apply List.ext_getElem
  · rw [slice, List.length_map, List.length_range, List.length_take, Nat.min_eq_left h]
  · intro i hi hi'
    rw [slice, List.length_map, List.length_range] at hi
    have hin : offset ≤ offset + i ∧ offset + i < offset + bs.length := by omega
    have hoffset : offset + i - offset = i := by omega
    have hlt : i < bs.length := by omega
    simp only [slice, List.getElem_map, List.getElem_range, store, if_pos hin, hoffset,
      List.getElem_take, List.getD_eq_getElem?_getD, List.getElem?_eq_getElem hlt,
      Option.getD_some]

/-- What lies before or behind a store is what it was. -/
theorem slice_store_of_apart {offset start n : ℕ} {bs : Bytes}
    (h : start + n ≤ offset ∨ offset + bs.length ≤ start) :
    (m.store offset bs).slice start n = m.slice start n := by
  apply List.map_congr_left
  intro i hi
  rw [List.mem_range] at hi
  rw [store, if_neg]
  omega

end Memory

theorem decode_append (front code : Bytes) (k : ℕ) :
    decode (front ++ code) (front.length + k) = decode code k := by
  have hdrop : (front ++ code).drop (front.length + k) = code.drop k := by
    rw [← List.drop_drop, List.drop_left]
  rw [decode, hdrop, decode]

/-- The bytes that belong to an instruction are no place to jump to. -/
theorem destinations_skip (bs rest : Bytes) (place : ℕ) :
    destinations bs.length place (bs ++ rest) = destinations 0 (place + bs.length) rest := by
  induction bs generalizing place with
  | nil => rfl
  | cons b bs ih =>
    rw [List.length_cons, List.cons_append, destinations, ih, Nat.add_assoc, Nat.add_comm 1]

namespace Frame

variable {F : Frame W} {s t u : State W} {i : Instruction}

/-- From `s` the frame comes to `t`, if it is paid for. -/
def Reaches (F : Frame W) (s t : State W) : Prop :=
  ∃ n, ∀ fuel, F.paid.run (n + fuel) s = F.paid.run fuel t

theorem Reaches.refl (s : State W) : F.Reaches s s := ⟨0, fun fuel => by rw [Nat.zero_add]⟩

theorem Reaches.step (hdecode : decode F.code s.pc = i) (hexecute : F.execute s i = .inl u)
    (h : F.Reaches u t) : F.Reaches s t := by
  obtain ⟨n, hn⟩ := h
  refine ⟨n + 1, fun fuel => ?_⟩
  have hstep : F.paid.step s = .inl u := by
    rw [Frame.step, if_neg (fun hgas => by cases hgas)]
    show F.execute s (decode F.code s.pc) = .inl u
    rw [hdecode, hexecute]
  rw [Nat.add_right_comm, run, hstep]
  exact hn fuel

theorem Reaches.trans (h : F.Reaches s t) (h' : F.Reaches t u) : F.Reaches s u := by
  obtain ⟨n, hn⟩ := h
  obtain ⟨m, hm⟩ := h'
  refine ⟨n + m, fun fuel => ?_⟩
  rw [Nat.add_assoc, hn, hm]

theorem Reaches.ends {w : W} {o : Outcome W} (h : F.Reaches (start w) s)
    (hdecode : decode F.code s.pc = i) (hexecute : F.execute s i = .inr o) : F.paid.Ends w o := by
  obtain ⟨n, hn⟩ := h
  refine ⟨n + 1, ?_⟩
  have hstep : F.paid.step s = .inr o := by
    rw [Frame.step, if_neg (fun hgas => by cases hgas)]
    show F.execute s (decode F.code s.pc) = .inr o
    rw [hdecode, hexecute]
  rw [hn, run, hstep]

end Frame

section Gas

variable (F : Frame W)

/-- A frame does what it would do with enough gas, or fails for lack of it. -/
theorem run_cases {fuel : ℕ} {s : State W} {o : Outcome W} (h : F.paid.run fuel s = some o) :
    F.run fuel s = some o ∨ F.run fuel s = some .failed ∧ ∃ n, F.exhausted n = true := by
  induction fuel generalizing s with
  | zero => cases h
  | succ fuel ih =>
    by_cases hgas : F.exhausted s.steps = true
    · right
      refine ⟨?_, s.steps, hgas⟩
      rw [Frame.run, Frame.step, if_pos hgas]
    · have hstep : F.step s = F.paid.step s := by
        rw [Frame.step, if_neg hgas]
        rfl
      rw [Frame.run] at h ⊢
      rw [hstep]
      cases hnext : F.paid.step s with
      | inl s' =>
        rw [hnext] at h
        exact ih h
      | inr o' =>
        rw [hnext] at h
        exact .inl h

theorem ends_cases {w : W} {o : Outcome W} (h : F.paid.Ends w o) :
    F.Ends w o ∨ F.Ends w .failed ∧ ∃ n, F.exhausted n = true := by
  obtain ⟨fuel, hrun⟩ := h
  rcases run_cases F hrun with hsame | ⟨hfailed, hgas⟩
  · exact .inl ⟨fuel, hsame⟩
  · exact .inr ⟨⟨fuel, hfailed⟩, hgas⟩

end Gas

end ByteMachine
