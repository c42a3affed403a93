import CryptoLink.Contracts.Clones

/-!
# Clones forward every call

The three words the factory writes are the creation code of a clone, creating it
leaves its 45 bytes as its code, and these hand every call on to the implementation
and its answer back.
-/

namespace CryptoLink.Contracts

open ByteMachine Frame

namespace CryptoLinkCloneFactory

variable {W : Type} {impl : Address} {budget : Budget} {memory : Memory}

theorem mstore_eq_some {m m' : Memory} {offset value : ℕ}
    (h : mstore budget m offset value = some m') : offset + 32 ≤ budget.size ∧
      m' = m.store offset (bytesOf 32 value) := by
  rw [mstore] at h
  split at h
  · rename_i hpaid
    exact ⟨hpaid, (Option.some.inj h).symm⟩
  · cases h

theorem add_of_paid {ptr n m : ℕ} (h : ptr + m ≤ 2 ^ 256) (hn : n < m) : add ptr n = ptr + n :=
  Nat.mod_eq_of_lt (by omega)

/-- The words overlap, and what is left of them is the creation code. -/
theorem createClone_eq {code : Bytes} (h : createClone budget memory impl = some code) :
    code = creationCode impl := by
  have hbounded := budget.bounded
  simp only [createClone, Option.bind_eq_bind, Option.bind_eq_some_iff] at h
  obtain ⟨m₁, h₁, m₂, h₂, m₃, h₃, hcode⟩ := h
  generalize mload memory 0x40 = ptr at h₁ h₂ h₃ hcode
  obtain ⟨hpaid₁, rfl⟩ := mstore_eq_some h₁
  rw [add_of_paid (m := 32) (by omega) (by omega)] at h₂
  obtain ⟨hpaid₂, rfl⟩ := mstore_eq_some h₂
  rw [add_of_paid (m := 52) (by omega) (by omega)] at h₃
  obtain ⟨hpaid₃, rfl⟩ := mstore_eq_some h₃
  cases hcode
  have hfront : (bytesOf 32 0x3d602d80600a3d3981f3363d3d373d3d3d363d73000000000000000000000000).take
      20 = bytesOf 10 0x3d602d80600a3d3981f3 ++ bytesOf 10 0x363d3d373d3d3d363d73 := by
    decide +kernel
  have hmiddle : (bytesOf 32 (bytes20 impl)).take 20 = bytesOf 20 impl.toNat :=
    take_bytesOf_shift 20 12 impl.toNat
  have hback : (bytesOf 32 0x5af43d82803e903d91602b57fd5bf30000000000000000000000000000000000).take
      15 = bytesOf 15 0x5af43d82803e903d91602b57fd5bf3 := by
    decide +kernel
  rw [show 0x37 = 20 + (20 + 15) from rfl, Memory.slice_add, Memory.slice_add]
  rw [Memory.slice_store_of_apart _ (by rw [length_bytesOf]; omega),
    Memory.slice_store_of_apart _ (by rw [length_bytesOf]; omega),
    Memory.slice_store _ _ (by rw [length_bytesOf]; omega), hfront]
  rw [Memory.slice_store_of_apart _ (by rw [length_bytesOf]; omega),
    Memory.slice_store _ _ (by rw [length_bytesOf]; omega), hmiddle]
  rw [Nat.add_assoc, Memory.slice_store _ _ (by rw [length_bytesOf]; omega), hback]
  rw [creationCode, runtimeCode, List.append_assoc]

theorem creation_opcodes : bytesOf 10 0x3d602d80600a3d3981f3 =
    [0x3d, 0x60, 0x2d, 0x80, 0x60, 0x0a, 0x3d, 0x39, 0x81, 0xf3] := by
  decide +kernel

theorem length_runtimeCode (impl : Address) : (runtimeCode impl).length = 45 := by
  rw [runtimeCode, List.length_append, List.length_append, length_bytesOf, length_bytesOf,
    length_bytesOf]

theorem creation_ends {F : Frame W} (hcode : F.code = creationCode impl) (w : W) :
    F.paid.Ends w (.returned (runtimeCode impl) w) := by
  have hcopied : window F.code 10 45 = runtimeCode impl := by
    rw [hcode, creationCode, ← length_runtimeCode impl, ← length_bytesOf 10 0x3d602d80600a3d3981f3]
    exact window_append _ _
  rw [creationCode, creation_opcodes] at hcode
  have hdecode : ∀ {pc : ℕ} {i : Instruction}, decode ([0x3d, 0x60, 0x2d, 0x80, 0x60, 0x0a, 0x3d,
      0x39, 0x81, 0xf3] ++ runtimeCode impl) pc = i → decode F.code pc = i := by
    intro pc i h
    rw [hcode]
    exact h
  have hreaches : F.Reaches (start w)
      ⟨9, [0, 45, 0], Memory.store (fun _ => 0) 0 (window F.code 10 45), [], w, 7⟩ := by
    refine .step (i := .returnDataSize) (hdecode rfl) rfl ?_
    refine .step (i := .push [0x2d]) (hdecode rfl) rfl ?_
    refine .step (i := .dup 0) (hdecode rfl) rfl ?_
    refine .step (i := .push [0x0a]) (hdecode rfl) rfl ?_
    refine .step (i := .returnDataSize) (hdecode rfl) rfl ?_
    refine .step (i := .codeCopy) (hdecode rfl) rfl ?_
    refine .step (i := .dup 1) (hdecode rfl) rfl ?_
    exact .refl _
  have hends := hreaches.ends (i := .ret) (hdecode rfl) rfl
  rw [Memory.slice_store _ _ (by rw [hcopied, length_runtimeCode]), hcopied,
    List.take_of_length_le (by rw [length_runtimeCode])] at hends
  exact hends

/-- The answer of the implementation, as the answer of the clone. -/
def forwarded : Bool × Bytes × W → ByteMachine.Outcome W
  | (true, data, world) => .returned data world
  | (false, data, _) => .reverted data

theorem runtime_opcodes : bytesOf 10 0x363d3d373d3d3d363d73 =
    [0x36, 0x3d, 0x3d, 0x37, 0x3d, 0x3d, 0x3d, 0x36, 0x3d, 0x73] := by
  decide +kernel

theorem runtime_opcodes_behind : bytesOf 15 0x5af43d82803e903d91602b57fd5bf3 =
    [0x5a, 0xf4, 0x3d, 0x82, 0x80, 0x3e, 0x90, 0x3d, 0x91, 0x60, 0x2b, 0x57, 0xfd, 0x5b, 0xf3] := by
  decide +kernel

/-- The code of a clone, the bytes of the address being `address`. -/
def around (address : Bytes) : Bytes :=
  [0x36, 0x3d, 0x3d, 0x37, 0x3d, 0x3d, 0x3d, 0x36, 0x3d, 0x73] ++ (address ++
    [0x5a, 0xf4, 0x3d, 0x82, 0x80, 0x3e, 0x90, 0x3d, 0x91, 0x60, 0x2b, 0x57, 0xfd, 0x5b, 0xf3])

theorem runtimeCode_eq (impl : Address) : runtimeCode impl = around (bytesOf 20 impl.toNat) := by
  rw [runtimeCode, runtime_opcodes, runtime_opcodes_behind, around]

section Around

variable {address : Bytes} {F : Frame W} {world : W}

theorem decode_around_push (h : address.length = 20) :
    decode (around address) 9 = .push address := by
  have hpush : decode (around address) 9 = .push (window (address ++ [0x5a, 0xf4, 0x3d, 0x82, 0x80,
      0x3e, 0x90, 0x3d, 0x91, 0x60, 0x2b, 0x57, 0xfd, 0x5b, 0xf3]) 0 20) := rfl
  rw [hpush, window_front h]

theorem decode_around (h : address.length = 20) (k : ℕ) : decode (around address) (30 + k) =
    decode [0x5a, 0xf4, 0x3d, 0x82, 0x80, 0x3e, 0x90, 0x3d, 0x91, 0x60, 0x2b, 0x57, 0xfd, 0x5b,
      0xf3] k := by
  have hlength : (([0x36, 0x3d, 0x3d, 0x37, 0x3d, 0x3d, 0x3d, 0x36, 0x3d, 0x73] : Bytes) ++
      address).length = 30 := by
    rw [List.length_append, h]
    rfl
  rw [around, ← List.append_assoc, ← hlength, decode_append]

theorem destinations_around (h : address.length = 20) :
    destinations 0 0 (around address) = [43] := by
  have hskip : destinations 0 0 (around address) = destinations 20 10 (address ++ [0x5a, 0xf4, 0x3d,
      0x82, 0x80, 0x3e, 0x90, 0x3d, 0x91, 0x60, 0x2b, 0x57, 0xfd, 0x5b, 0xf3]) := rfl
  rw [hskip, ← h, destinations_skip, h]
  rfl

/-- The call data is copied to memory, and the call is about to be handed on. -/
theorem around_reaches_call (hcode : F.code = around address) (h : address.length = 20) :
    F.Reaches (start world) ⟨31, [F.gasLeft 10, wordOf address, 0, F.callData.length, 0, 0, 0],
      Memory.store (fun _ => 0) 0 (window F.callData 0 F.callData.length), [], world, 11⟩ := by
  have hdecode : ∀ {pc : ℕ} {i : Instruction}, decode (around address) pc = i →
      decode F.code pc = i := by
    intro pc i hi
    rw [hcode]
    exact hi
  obtain ⟨memory, hmemory⟩ : ∃ memory,
      memory = Memory.store (fun _ => 0) 0 (window F.callData 0 F.callData.length) := ⟨_, rfl⟩
  rw [← hmemory]
  have hcopied : F.Reaches (start world) ⟨4, [], memory, [], world, 4⟩ := by
    refine .step (i := .callDataSize) (hdecode rfl) rfl ?_
    refine .step (i := .returnDataSize) (hdecode rfl) rfl ?_
    refine .step (i := .returnDataSize) (hdecode rfl) rfl ?_
    refine .step (i := .callDataCopy) (u := ⟨4, [], memory, [], world, 4⟩)
      (hdecode rfl) ?_ (.refl _)
    rw [hmemory]
    rfl
  have hpushed : F.Reaches ⟨4, [], memory, [], world, 4⟩
      ⟨30, [wordOf address, 0, F.callData.length, 0, 0, 0], memory, [], world, 10⟩ := by
    refine .step (i := .returnDataSize) (hdecode rfl) rfl ?_
    refine .step (i := .returnDataSize) (hdecode rfl) rfl ?_
    refine .step (i := .returnDataSize) (hdecode rfl) rfl ?_
    refine .step (i := .callDataSize) (hdecode rfl) rfl ?_
    refine .step (i := .returnDataSize) (hdecode rfl) rfl ?_
    refine .step (i := .push address) (hdecode (decode_around_push h)) ?_ (.refl _)
    rw [execute, next, h]
    rfl
  refine hcopied.trans (hpushed.trans ?_)
  exact .step (i := .gas) (hdecode (decode_around h 0)) rfl (.refl _)

/-- The answer is in memory, and it stands on the stack whether the call succeeded. -/
theorem around_reaches_answer (hcode : F.code = around address) (h : address.length = 20)
    (memory : Memory) (data : Bytes) (success : ℕ) (n : ℕ) :
    F.Reaches ⟨32, [success, 0], memory, data, world, n⟩
      ⟨41, [0x2b, success, 0, data.length],
        memory.store 0 (window data 0 data.length), data, world, n + 8⟩ := by
  have hdecode : ∀ {k : ℕ} {i : Instruction},
    decode [0x5a, 0xf4, 0x3d, 0x82, 0x80, 0x3e, 0x90, 0x3d,
      0x91, 0x60, 0x2b, 0x57, 0xfd, 0x5b, 0xf3] k = i → decode F.code (30 + k) = i := by
    intro k i hi
    rw [hcode, decode_around h]
    exact hi
  refine .step (i := .returnDataSize) (hdecode (k := 2) rfl) rfl ?_
  refine .step (i := .dup 2) (hdecode (k := 3) rfl) rfl ?_
  refine .step (i := .dup 0) (hdecode (k := 4) rfl) rfl ?_
  refine .step (i := .returnDataCopy)
    (u := ⟨36, [success, 0], memory.store 0 (window data 0 data.length), data, world, n + 4⟩)
    (hdecode (k := 5) rfl) ?_ ?_
  · show (if data.length < 0 + data.length then _ else _) = _
    rw [if_neg (by omega)]
    rfl
  refine .step (i := .swap 0) (hdecode (k := 6) rfl) rfl ?_
  refine .step (i := .returnDataSize) (hdecode (k := 7) rfl) rfl ?_
  refine .step (i := .swap 1) (hdecode (k := 8) rfl) rfl ?_
  exact .step (i := .push [0x2b]) (hdecode (k := 9) rfl) rfl (.refl _)

theorem around_ends (hcode : F.code = around address) (h : address.length = 20) :
    F.paid.Ends world
      (forwarded (F.delegate (F.gasLeft 10) (wordOf address % 2 ^ 160) F.callData world)) := by
  have hdecode : ∀ {k : ℕ} {i : Instruction},
    decode [0x5a, 0xf4, 0x3d, 0x82, 0x80, 0x3e, 0x90, 0x3d,
      0x91, 0x60, 0x2b, 0x57, 0xfd, 0x5b, 0xf3] k = i → decode F.code (30 + k) = i := by
    intro k i hi
    rw [hcode, decode_around h]
    exact hi
  have hcall : F.Reaches (start world) _ := around_reaches_call hcode h
  have hinput : (Memory.store (fun _ => 0) 0 (window F.callData 0 F.callData.length)).slice 0
      F.callData.length = F.callData := by
    rw [window_self, Memory.slice_store _ _ le_rfl, List.take_length]
  generalize Memory.store (fun _ => 0) 0 (window F.callData 0 F.callData.length) = memory
    at hcall hinput
  obtain ⟨⟨success, data, world'⟩, hanswer⟩ : ∃ answer,
      F.delegate (F.gasLeft 10) (wordOf address % 2 ^ 160) F.callData world = answer := ⟨_, rfl⟩
  have hanswered : F.Reaches (start world) ⟨32, [if success then 1 else 0, 0],
      memory.store 0 (data.take 0), data, if success then world' else world, 12⟩ := by
    refine hcall.trans (.step (i := .delegateCall) (hdecode (k := 1) rfl) ?_ (.refl _))
    simp only [execute, hinput, hanswer]
    rfl
  have hback := hanswered.trans (around_reaches_answer hcode h _ _ _ _)
  have hsaid : (Memory.store (memory.store 0 (data.take 0)) 0 (window data 0 data.length)).slice 0
      data.length = data := by
    rw [window_self, Memory.slice_store _ _ le_rfl, List.take_length]
  generalize Memory.store (memory.store 0 (data.take 0)) 0 (window data 0 data.length) = said
    at hback hsaid
  rw [hanswer]
  cases success with
  | true =>
    have hjumped : F.Reaches (start world) ⟨44, [0, data.length], said, data, world', 22⟩ := by
      refine hback.trans ?_
      refine .step (i := .jumpIf) (u := ⟨43, [0, data.length], said, data, world', 21⟩)
        (hdecode (k := 11) rfl) ?_ (.step (i := .jumpDest) (hdecode (k := 13) rfl) rfl (.refl _))
      show (if 43 ∈ destinations 0 0 F.code then _ else _) = _
      rw [hcode, destinations_around h, if_pos (List.mem_singleton.mpr rfl)]
      rfl
    have hends := hjumped.ends (i := .ret) (hdecode (k := 14) rfl) rfl
    rw [hsaid] at hends
    exact hends
  | false =>
    have hfell : F.Reaches (start world) ⟨42, [0, data.length], said, data, world, 21⟩ :=
      hback.trans (.step (i := .jumpIf) (hdecode (k := 11) rfl) rfl (.refl _))
    have hends := hfell.ends (i := .revert) (hdecode (k := 12) rfl) rfl
    rw [hsaid] at hends
    exact hends

end Around

/-- The frame fails, and gas was short somewhere. -/
def Starved (F : Frame W) (w : W) : Prop := F.Ends w .failed ∧ ∃ n, F.exhausted n = true

/-- Wherever the free pointer points and whatever lies in memory: unless gas runs out,
the creation leaves the code of a clone, and whoever calls that code with whatever
data gets the answer of the implementation, run on the state of the clone. -/
theorem clones_forward_calls {init : Bytes} (hcreate : createClone budget memory impl = some init)
    {F : Frame W} (hinit : F.code = init) (w : W) :
    Starved F w ∨ ∃ code, F.Ends w (.returned code w) ∧ code.length = 45 ∧
      ∀ (G : Frame W) (v : W), G.code = code →
        Starved G v ∨ ∃ gas, G.Ends v (forwarded (G.delegate gas impl.toNat G.callData v)) := by
  have hcode : F.code = creationCode impl := hinit.trans (createClone_eq hcreate)
  rcases ends_cases F (creation_ends hcode w) with hcreated | hstarved
  · right
    refine ⟨runtimeCode impl, hcreated, length_runtimeCode impl, ?_⟩
    intro G v hG
    have hword : wordOf (bytesOf 20 impl.toNat) % 2 ^ 160 = impl.toNat := by
      rw [wordOf_bytesOf]
      have := impl.isLt
      omega
    have hcalled : G.paid.Ends v _ :=
      around_ends (hG.trans (runtimeCode_eq impl)) (length_bytesOf 20 impl.toNat)
    rw [hword] at hcalled
    rcases ends_cases G hcalled with hforwarded | hstarved
    · exact .inr ⟨_, hforwarded⟩
    · exact .inl hstarved
  · exact .inl hstarved

/-- The memory of a fresh frame: the free pointer is behind the scratch space. -/
def freshMemory : Memory := fun i => if i = 0x5f then 0x80 else 0

/-- A clone of the account `0xbebe`, which answers every call with its input. -/
theorem clones_forward_calls_fresh :
    Starved (⟨creationCode 0xbebe, [], fun _ _ input n => (true, input, n + 1), fun _ => 5000,
        fun _ => false⟩ : Frame ℕ) 0 ∨
      ∃ code, Frame.Ends (⟨creationCode 0xbebe, [], fun _ _ input n => (true, input, n + 1),
          fun _ => 5000, fun _ => false⟩ : Frame ℕ) 0 (.returned code 0) ∧ code.length = 45 ∧
        ∀ (G : Frame ℕ) (v : ℕ), G.code = code → Starved G v ∨
          ∃ gas, G.Ends v (forwarded (G.delegate gas (0xbebe : Address).toNat G.callData v)) :=
  @clones_forward_calls ℕ 0xbebe ⟨2 ^ 32, by decide⟩ freshMemory (creationCode 0xbebe)
    (by decide +kernel) _ rfl 0

end CryptoLinkCloneFactory

end CryptoLink.Contracts
