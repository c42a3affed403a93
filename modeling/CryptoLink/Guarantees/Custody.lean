import CryptoLink.Contracts.Collector

/-!
# Custody

From the end of its deployment on a clone belongs to the account it was
deployed for. Whatever is called in whatever order and from within whatever
call, nothing leaves the clone but to that account and at its request.
-/

namespace CryptoLink.Contracts

open CallStacks MerchantCollectorV2

/-- Native money goes to the merchant inside a withdrawal the merchant called,
and so does every token. -/
def Outgoing.Custodial (m : Address) (e : Outgoing) : Prop :=
  (0 < e.value → e.target = m ∧ e.sender = m ∧
    (e.function = .withdrawNative ∨ ∃ tokens, e.function = .withdrawAll tokens)) ∧
  ∀ recipient amount, e.input = .transfer recipient amount → recipient = m ∧ e.sender = m

/-- The factory is there and no clone of it yet; other collectors may be. -/
structure Fresh (P : Deployment) (w : Chain) : Prop where
  factory_occupied : w.occupied P.factory = true
  factory_plain : w.collectors P.factory = none
  collectors_occupied : ∀ a, (w.collectors a).isSome → w.occupied a = true
  undeployed : ∀ c, w.deployed c = none

namespace MerchantCollectorV2

section

variable {self : Address} {msg : Msg} {data : Calldata} {st : Storage} {balance : ℕ} {todo : Todo}
  {answer : Answer} {token : Address} {tokens : List Address} {rest : Option (List Address)}
  {Φ Ψ : Address → ℕ → Calldata → Prop} {body : Step}

/-- A call that is made is among `Φ`, and its answer is waited for. -/
def Step.Sends (Φ : Address → ℕ → Calldata → Prop) : Step → Prop
  | .send target value input _ todo => Φ target value input ∧ todo ≠ .enter
  | _ => True

/-- Storage that is left behind is among `Ψ`. -/
def Step.Stores (Ψ : Storage → Prop) : Step → Prop
  | .done st _ => Ψ st
  | _ => True

theorem Step.Sends.mono (h : body.Sends Φ) (himp : ∀ t v i, Φ t v i → Ψ t v i) : body.Sends Ψ := by
  cases body with
  | send target value input readOnly todo => exact ⟨himp _ _ _ h.1, h.2⟩
  | revert => exact trivial
  | done st word => exact trivial

theorem nonPayable_sends (h : body.Sends Φ) : (nonPayable msg body).Sends Φ := by
  rw [nonPayable]
  split
  · exact trivial
  · exact h

theorem onlyOwner_sends (h : msg.sender = st.owner → body.Sends Φ) :
    (onlyOwner msg st body).Sends Φ := by
  rw [onlyOwner]
  split
  · rename_i howner
    exact h howner
  · exact trivial

theorem written_sends (h : body.Sends Φ) : (written msg body).Sends Φ := by
  rw [written]
  split
  · exact trivial
  · exact h

/-- A question for a balance: no money, and no transfer. -/
def Asks (_ : Address) (value : ℕ) (input : Calldata) : Prop :=
  value = 0 ∧ ∀ recipient amount, input ≠ .transfer recipient amount

theorem tokenBalance_sends : (tokenBalance self token rest).Sends Asks :=
  ⟨⟨rfl, fun _ _ h => by cases h⟩, fun h => by cases h⟩

theorem withdrawTokens_sends : (withdrawTokens self st tokens).Sends Asks := by
  induction tokens with
  | nil => exact trivial
  | cons token rest ih =>
    rw [withdrawTokens]
    split
    · exact ih
    · exact tokenBalance_sends

theorem proceed_sends : (proceed self st rest).Sends Asks := by
  cases rest with
  | none => exact trivial
  | some tokens => exact withdrawTokens_sends

/-- Money or a question: what the owner of a collector can make it send. -/
def Owed (data : Calldata) (st : Storage) (target : Address) (value : ℕ) (input : Calldata) :
    Prop :=
  (0 < value → target = st.owner ∧
    (data = .withdrawNative ∨ ∃ tokens, data = .withdrawAll tokens)) ∧
  ∀ recipient amount, input = .transfer recipient amount → recipient = st.owner

theorem owed_of_asks {target : Address} {value : ℕ} {input : Calldata}
    (h : Asks target value input) : Owed data st target value input := by
  obtain ⟨rfl, hinput⟩ := h
  refine ⟨fun hpos => absurd hpos (Nat.lt_irrefl 0), ?_⟩
  intro recipient amount heq
  exact absurd heq (hinput recipient amount)

/-- The functions that make calls. -/
def Withdraws (data : Calldata) : Prop :=
  data = .withdrawNative ∨ (∃ token, data = .withdrawToken token) ∨
    ∃ tokens, data = .withdrawAll tokens

/-- At its entry a function sends for the owner only, and whatever is sent
later is what the owner is owed. -/
theorem step_sends : (step self msg data st balance todo answer).Sends fun target value input =>
    (todo = .enter → msg.sender = st.owner ∧ Withdraws data) ∧ Owed data st target value input := by
  cases todo with
  | enter =>
    cases data with
    | empty => exact written_sends trivial
    | initializeOwner owner =>
      refine nonPayable_sends ?_
      split
      · exact trivial
      · split
        · exact trivial
        · exact written_sends trivial
    | owner => exact nonPayable_sends trivial
    | withdrawNative =>
      refine nonPayable_sends (onlyOwner_sends fun howner => ?_)
      split
      · refine ⟨⟨fun _ => ⟨howner, .inl rfl⟩, fun _ => ⟨rfl, .inl rfl⟩, ?_⟩, fun h => by cases h⟩
        intro recipient amount h
        cases h
      · exact trivial
    | withdrawToken token =>
      refine nonPayable_sends (onlyOwner_sends fun howner => ?_)
      split
      · exact trivial
      · exact tokenBalance_sends.mono fun _ _ _ h =>
          ⟨fun _ => ⟨howner, .inr (.inl ⟨token, rfl⟩)⟩, owed_of_asks h⟩
    | withdrawAll tokens =>
      refine nonPayable_sends (onlyOwner_sends fun howner => ?_)
      have hwithdraws : Withdraws (.withdrawAll tokens) := .inr (.inr ⟨tokens, rfl⟩)
      split
      · refine ⟨⟨fun _ => ⟨howner, hwithdraws⟩, fun _ => ⟨rfl, .inr ⟨tokens, rfl⟩⟩, ?_⟩,
          fun h => by cases h⟩
        intro recipient amount h
        cases h
      · exact withdrawTokens_sends.mono fun _ _ _ h =>
          ⟨fun _ => ⟨howner, hwithdraws⟩, owed_of_asks h⟩
    | deploy merchantOwner => exact trivial
    | implementation => exact trivial
    | balanceOf account => exact trivial
    | transfer recipient amount => exact trivial
    | other => exact trivial
  | paid rest =>
    show (afterPayment self msg st rest answer).Sends _
    rw [afterPayment]
    split
    · exact written_sends (proceed_sends.mono fun _ _ _ h =>
        ⟨fun henter => Todo.noConfusion henter, owed_of_asks h⟩)
    · exact trivial
  | asked token rest =>
    show (afterBalance self st token rest answer).Sends _
    rw [afterBalance.eq_def]
    extract_lets bal
    split
    · refine ⟨⟨fun henter => Todo.noConfusion henter, fun hpos =>
        absurd hpos (Nat.lt_irrefl 0), ?_⟩,
        fun h => by cases h⟩
      rintro recipient amount h
      cases h
      rfl
    · cases rest with
      | none => exact trivial
      | some tokens =>
        exact withdrawTokens_sends.mono fun _ _ _ h =>
          ⟨fun henter => Todo.noConfusion henter, owed_of_asks h⟩
  | sent token amount rest =>
    show (afterTransfer self msg st rest answer).Sends _
    rw [afterTransfer]
    split
    · exact written_sends (proceed_sends.mono fun _ _ _ h =>
        ⟨fun henter => Todo.noConfusion henter, owed_of_asks h⟩)
    · exact trivial

variable {Θ : Storage → Prop}

theorem written_stores (h : body.Stores Θ) : (written msg body).Stores Θ := by
  rw [written]
  split
  · exact trivial
  · exact h

theorem nonPayable_stores (h : body.Stores Θ) : (nonPayable msg body).Stores Θ := by
  rw [nonPayable]
  split
  · exact trivial
  · exact h

theorem onlyOwner_stores (h : body.Stores Θ) : (onlyOwner msg st body).Stores Θ := by
  rw [onlyOwner]
  split
  · exact h
  · exact trivial

theorem withdrawTokens_stores (h : Θ st) : (withdrawTokens self st tokens).Stores Θ := by
  induction tokens with
  | nil => exact h
  | cons token rest ih =>
    rw [withdrawTokens]
    split
    · exact ih
    · exact trivial

theorem proceed_stores (h : Θ st) : (proceed self st rest).Stores Θ := by
  cases rest with
  | none => exact h
  | some tokens => exact withdrawTokens_stores h

/-- Once initialized, a collector keeps its storage. -/
theorem step_stores : (step self msg data st balance todo answer).Stores fun st' =>
    st.initialized = true → st' = st := by
  have hkept : st.initialized = true → st = st := fun _ => rfl
  cases todo with
  | enter =>
    cases data with
    | empty => exact written_stores hkept
    | initializeOwner owner =>
      refine nonPayable_stores ?_
      split
      · exact trivial
      · rename_i hfresh
        split
        · exact trivial
        · refine written_stores ?_
          intro hinit
          exact absurd hinit hfresh
    | owner => exact nonPayable_stores hkept
    | withdrawNative =>
      refine nonPayable_stores (onlyOwner_stores ?_)
      split
      · exact trivial
      · exact trivial
    | withdrawToken token =>
      refine nonPayable_stores (onlyOwner_stores ?_)
      split
      · exact trivial
      · exact trivial
    | withdrawAll tokens =>
      refine nonPayable_stores (onlyOwner_stores ?_)
      split
      · exact trivial
      · exact withdrawTokens_stores hkept
    | deploy merchantOwner => exact trivial
    | implementation => exact trivial
    | balanceOf account => exact trivial
    | transfer recipient amount => exact trivial
    | other => exact trivial
  | paid rest =>
    show (afterPayment self msg st rest answer).Stores _
    rw [afterPayment]
    split
    · exact written_stores (proceed_stores hkept)
    · exact trivial
  | asked token rest =>
    show (afterBalance self st token rest answer).Stores _
    rw [afterBalance.eq_def]
    extract_lets bal
    split
    · exact trivial
    · cases rest with
      | none => exact trivial
      | some tokens => exact withdrawTokens_stores hkept
  | sent token amount rest =>
    show (afterTransfer self msg st rest answer).Stores _
    rw [afterTransfer]
    split
    · exact written_stores (proceed_stores hkept)
    · exact trivial

/-- What `initialize` leaves behind. -/
theorem initializeOwner_done {owner : Address} {st' : Storage} {word : Option ℕ}
    (h : initializeOwner msg st owner = .done st' word) : st' = ⟨owner, true⟩ := by
  unfold initializeOwner nonPayable written at h
  split at h
  · cases h
  · split at h
    · cases h
    · split at h
      · cases h
      · split at h
        · cases h
        · cases h
          rfl

end

end MerchantCollectorV2

section

variable (P : Deployment) (base : Chain)

structure Sane (w : Chain) : Prop where
  factory_occupied : w.occupied P.factory = true
  factory_plain : w.collectors P.factory = none
  collectors_occupied : ∀ a, (w.collectors a).isSome → w.occupied a = true
  owned : ∀ c m, w.deployed c = some m → w.collectors c = some ⟨m, true⟩
  kept : ∀ c m, base.deployed c = some m → w.deployed c = some m

/-- Accounts stay what they are, and no clone is deployed where there was one. -/
structure Grows (v w : Chain) : Prop where
  occupied : ∀ a, v.occupied a = true → w.occupied a = true
  collectors : ∀ a, v.occupied a = true → (w.collectors a).isSome = (v.collectors a).isSome
  deployed : ∀ a m, v.occupied a = true → w.deployed a = some m → v.deployed a = some m

/-- Code runs at an account of its kind. A collector that waits for an answer
was called by its owner. -/
def Fit (w : Chain) : Code → Prop
  | .account self _ =>
      w.occupied self = true ∧ w.collectors self = none ∧ self ≠ P.factory
  | .collector self msg data todo _ =>
      (w.collectors self).isSome ∧ ∀ m, w.deployed self = some m →
        todo = .enter ∨ (msg.sender = m ∧ Withdraws data)
  | .factory _ _ _ => True

theorem Grows.refl (w : Chain) : Grows w w :=
  ⟨fun _ h => h, fun _ _ => rfl, fun _ _ _ h => h⟩

theorem Grows.trans {u v w : Chain} (h : Grows u v) (h' : Grows v w) : Grows u w := by
  refine ⟨?_, ?_, ?_⟩
  · intro a ha
    exact h'.occupied a (h.occupied a ha)
  · intro a ha
    exact (h'.collectors a (h.occupied a ha)).trans (h.collectors a ha)
  · intro a m ha hm
    exact h.deployed a m ha (h'.deployed a m (h.occupied a ha) hm)

/-- Only balances differ. -/
theorem Grows.of_eq {v w : Chain} (hcollectors : w.collectors = v.collectors)
    (hoccupied : w.occupied = v.occupied) (hdeployed : w.deployed = v.deployed) : Grows v w := by
  refine ⟨?_, ?_, ?_⟩
  · intro a ha
    rw [hoccupied]
    exact ha
  · intro a _
    rw [hcollectors]
  · intro a m _ hm
    rw [← hdeployed]
    exact hm

variable {P base}

theorem Sane.of_eq {v w : Chain} (h : Sane P base v) (hcollectors : w.collectors = v.collectors)
    (hoccupied : w.occupied = v.occupied) (hdeployed : w.deployed = v.deployed) :
    Sane P base w := by
  obtain ⟨hfactory, hplain, hcoll, howned, hkept⟩ := h
  rw [← hcollectors] at hplain hcoll howned
  rw [← hoccupied] at hfactory hcoll
  rw [← hdeployed] at howned hkept
  exact ⟨hfactory, hplain, hcoll, howned, hkept⟩

theorem fit_of_grows {v w : Chain} {code : Code} (hgrows : Grows v w) (hsane : Sane P base v)
    (hfit : Fit P v code) : Fit P w code := by
  cases code with
  | account self static =>
    obtain ⟨hocc, hnone, hne⟩ := hfit
    have hsome := hgrows.collectors self hocc
    rw [hnone] at hsome
    exact ⟨hgrows.occupied self hocc,
      Option.isSome_eq_false_iff.mp hsome |> Option.isNone_iff_eq_none.mp,
      hne⟩
  | collector self msg data todo answer =>
    obtain ⟨hsome, hsender⟩ := hfit
    have hocc := hsane.collectors_occupied self hsome
    constructor
    · rw [hgrows.collectors self hocc]
      exact hsome
    · intro m hm
      exact hsender m (hgrows.deployed self m hocc hm)
  | factory msg data clone => exact trivial

variable (P base) in
def discipline : Discipline Code Chain where
  holds := Sane P base
  fit := Fit P
  grows := Grows
  grows_refl := Grows.refl
  grows_trans := Grows.trans
  fit_of_grows := fit_of_grows

/-- The clone that `deploy` is about to initialize was not there before. -/
def Begun (f : Frame Code Chain) : Prop :=
  ∀ msg data clone, f.code = .factory msg data (some clone) → f.saved.occupied clone = false

variable (P base) in
structure Safe (x : Execution) : Prop where
  sound : Sound (discipline P base) x.world x.stack
  begun : ∀ f ∈ x.stack, Begun f
  custodial : ∀ e ∈ x.calls, ∀ m, e.merchant = some m → e.Custodial m

theorem Safe.sane {x : Execution} (h : Safe P base x) : Sane P base x.world := h.sound.holds

theorem tell_sound {answer : Answer} {w : Chain} {stack : List (Frame Code Chain)}
    (h : Sound (discipline P base) w stack) :
    Sound (discipline P base) w (Execution.tell answer stack) := by
  match stack, h with
  | [], h => exact h
  | ⟨.account _ _, _⟩ :: _, h => exact h
  | ⟨.factory _ _ _, _⟩ :: _, h => exact h
  | ⟨.collector _ _ _ _ _, _⟩ :: _, h => exact h.retell fun hfit => hfit

theorem tell_begun {answer : Answer} {stack : List (Frame Code Chain)}
    (h : ∀ f ∈ stack, Begun f) : ∀ f ∈ Execution.tell answer stack, Begun f := by
  match stack, h with
  | [], h => exact h
  | ⟨.account _ _, _⟩ :: _, h => exact h
  | ⟨.factory _ _ _, _⟩ :: _, h => exact h
  | ⟨.collector self msg data todo _, saved⟩ :: rest, h =>
    intro f hf
    rcases List.mem_cons.mp hf with rfl | hf
    · intro msg data clone hcode
      cases hcode
    · exact h f (List.mem_cons_of_mem _ hf)

variable {x : Execution} {self sender target : Address} {value : ℕ} {data : Calldata}
  {saved : Chain} {rest : List (Frame Code Chain)}

theorem push_safe (h : Safe P base x) {code : Code} {w : Chain} (hgrows : Grows x.world w)
    (hsane : Sane P base w) (hfit : Fit P w code)
    (hplain : ∀ msg data clone, code ≠ .factory msg data (some clone)) :
    Safe P base (x.push code w) := by
  refine ⟨h.sound.push hgrows hsane hfit, ?_, h.custodial⟩
  intro f hf
  rcases List.mem_cons.mp hf with rfl | hf
  · intro msg data clone hcode
    exact absurd hcode (hplain msg data clone)
  · exact h.begun f hf

theorem grow_safe (h : Safe P base x) {w : Chain} (hgrows : Grows x.world w)
    (hsane : Sane P base w) : Safe P base { x with world := w } :=
  ⟨h.sound.grow hgrows hsane, h.begun, h.custodial⟩

theorem pay_grows {w : Chain} : Grows w (w.pay sender target value) := .of_eq rfl rfl rfl

theorem pay_sane {w : Chain} (h : Sane P base w) : Sane P base (w.pay sender target value) :=
  h.of_eq rfl rfl rfl

theorem enter_safe (h : Safe P base x) {static : Bool} :
    Safe P base (x.enter P sender target value data static) := by
  have hsane : Sane P base (x.world.pay sender target value) := pay_sane h.sane
  rw [Execution.enter]
  split
  · exact ⟨tell_sound h.sound, tell_begun h.begun, h.custodial⟩
  · split
    · rename_i hsome
      refine push_safe h pay_grows hsane ⟨hsome, fun _ _ => .inl rfl⟩ ?_
      intro msg data clone heq
      cases heq
    · rename_i hnone
      split
      · refine push_safe h pay_grows hsane trivial ?_
        intro msg data clone heq
        cases heq
      · rename_i hfactory
        split
        · rename_i hocc
          have hplain : x.world.collectors target = none := by
            cases hcoll : x.world.collectors target with
            | none => rfl
            | some st =>
              rw [hcoll] at hnone
              exact absurd rfl hnone
          refine push_safe h pay_grows hsane ⟨hocc, hplain, hfactory⟩ ?_
          intro msg data clone heq
          cases heq
        · have hpaid := grow_safe h pay_grows hsane
          exact ⟨tell_sound hpaid.sound, tell_begun hpaid.begun, h.custodial⟩

theorem leave_safe (h : Safe P base x) {success : Bool} {word : Option ℕ} :
    Safe P base (x.leave success word) := by
  obtain ⟨world, stack, calls⟩ := x
  obtain ⟨hsound, hbegun, hcustodial⟩ := h
  cases stack with
  | nil => exact ⟨hsound, hbegun, hcustodial⟩
  | cons f rest =>
    have hrest : ∀ g ∈ rest, Begun g := fun g hg => hbegun g (List.mem_cons_of_mem _ hg)
    cases success with
    | true => exact ⟨tell_sound (hsound.commit hsound.2.2.1 hsound.1), tell_begun hrest, hcustodial⟩
    | false => exact ⟨tell_sound hsound.revert, tell_begun hrest, hcustodial⟩

/-- The world with a new clone in it, and with the clone initialized. -/
theorem clone_sane {w : Chain} (h : Sane P base w) {clone : Address} {st : Storage} {n : ℕ}
    (hfree : w.occupied clone = false) :
    Sane P base { w with
      collectors := Function.update w.collectors clone (some st)
      occupied := Function.update w.occupied clone true
      clones := n } := by
  have hne : ∀ a, w.occupied a = true → a ≠ clone := by
    rintro a ha rfl
    rw [hfree] at ha
    cases ha
  refine ⟨?_, ?_, ?_, ?_, h.kept⟩
  · exact (Function.update_of_ne (hne _ h.factory_occupied) _ _).trans h.factory_occupied
  · exact (Function.update_of_ne (hne _ h.factory_occupied) _ _).trans h.factory_plain
  · intro a ha
    by_cases heq : a = clone
    · subst heq
      exact Function.update_self _ _ _
    · have ha' : (Function.update w.collectors clone (some st) a).isSome := ha
      rw [Function.update_of_ne heq] at ha'
      exact (Function.update_of_ne heq _ _).trans (h.collectors_occupied a ha')
  · intro c m hm
    have hcoll := h.owned c m hm
    have hocc := h.collectors_occupied c (by rw [hcoll]; rfl)
    exact (Function.update_of_ne (hne c hocc) _ _).trans hcoll

theorem clone_grows {v w : Chain} (h : Grows v w) {clone : Address} {st : Storage} {n : ℕ}
    (hfree : w.occupied clone = false) :
    Grows v { w with
      collectors := Function.update w.collectors clone (some st)
      occupied := Function.update w.occupied clone true
      clones := n } := by
  have hne : ∀ a, v.occupied a = true → a ≠ clone := by
    rintro a ha rfl
    rw [h.occupied a ha] at hfree
    cases hfree
  refine ⟨?_, ?_, h.deployed⟩
  · intro a ha
    exact (Function.update_of_ne (hne a ha) _ _).trans (h.occupied a ha)
  · intro a ha
    have heq := h.collectors a ha
    rw [← heq]
    exact congrArg Option.isSome (Function.update_of_ne (hne a ha) _ _)

theorem initialized_sane {w : Chain} (h : Sane P base w) {clone m : Address} {st : Storage}
    (hclone : w.collectors clone = some st) (hbase : base.deployed clone = none) :
    Sane P base { w with
      collectors := Function.update w.collectors clone (some ⟨m, true⟩)
      deployed := Function.update w.deployed clone (some m) } := by
  refine ⟨h.factory_occupied, ?_, ?_, ?_, ?_⟩
  · have hne : P.factory ≠ clone := by
      rintro rfl
      rw [h.factory_plain] at hclone
      cases hclone
    exact (Function.update_of_ne hne _ _).trans h.factory_plain
  · intro a ha
    by_cases heq : a = clone
    · subst heq
      exact h.collectors_occupied a (by rw [hclone]; rfl)
    · have ha' : (Function.update w.collectors clone (some ⟨m, true⟩) a).isSome := ha
      rw [Function.update_of_ne heq] at ha'
      exact h.collectors_occupied a ha'
  · intro c m' hm'
    by_cases heq : c = clone
    · subst heq
      have hm : some m = some m' := (Function.update_self c _ _).symm.trans hm'
      cases hm
      exact Function.update_self _ _ _
    · exact (Function.update_of_ne heq _ _).trans
        (h.owned c m' ((Function.update_of_ne heq _ _).symm.trans hm'))
  · intro c m' hm'
    have hne : c ≠ clone := by
      rintro rfl
      rw [hbase] at hm'
      cases hm'
    exact (Function.update_of_ne hne _ _).trans (h.kept c m' hm')

theorem initialized_grows {v w : Chain} (h : Grows v w) {clone m : Address} {st st' : Storage}
    (hclone : w.collectors clone = some st) (hfree : v.occupied clone = false) :
    Grows v { w with
      collectors := Function.update w.collectors clone (some st')
      deployed := Function.update w.deployed clone (some m) } := by
  have hne : ∀ a, v.occupied a = true → a ≠ clone := by
    rintro a ha rfl
    rw [hfree] at ha
    cases ha
  refine ⟨h.occupied, ?_, ?_⟩
  · intro a ha
    rw [← h.collectors a ha]
    exact congrArg Option.isSome (Function.update_of_ne (hne a ha) _ _)
  · intro a m' ha hm'
    exact h.deployed a m' ha ((Function.update_of_ne (hne a ha) _ _).symm.trans hm')

theorem deployStep_safe (h : Safe P base x) {msg : Msg} {clone : Option Address}
    (hstack : x.stack = ⟨.factory msg data clone, saved⟩ :: rest) :
    Safe P base (x.deployStep P msg data clone saved rest) := by
  obtain ⟨world, stack, calls⟩ := x
  subst hstack
  have hsane : Sane P base world := h.sane
  rw [Execution.deployStep.eq_def]
  split
  · extract_lets address
    split
    · exact leave_safe h
    · rename_i hok
      have hfree : world.occupied (P.cloneAddress world.clones) = false := by
        cases hocc : world.occupied (P.cloneAddress world.clones) with
        | false => rfl
        | true => exact absurd (.inr (.inr (.inr hocc))) hok
      obtain ⟨hsound, hbegun, hcustodial⟩ := h
      have hgrows : Grows saved world := hsound.2.2.1
      refine ⟨hsound.replace (clone_grows hgrows hfree) (clone_sane hsane hfree) trivial, ?_,
        hcustodial⟩
      intro f hf
      rcases List.mem_cons.mp hf with rfl | hf
      · intro msg data clone hcode
        cases hcode
        cases hsaved : saved.occupied (P.cloneAddress world.clones) with
        | false => rfl
        | true =>
          rw [hgrows.occupied _ hsaved] at hfree
          cases hfree
      · exact hbegun f (List.mem_cons_of_mem _ hf)
  · rename_i merchantOwner clone
    split
    · exact leave_safe h
    · rename_i st hclone
      split
      · rename_i st' word hdone
        have hst := initializeOwner_done hdone
        subst hst
        obtain ⟨hsound, hbegun, hcustodial⟩ := h
        have hfree : saved.occupied clone = false :=
          hbegun _ List.mem_cons_self _ _ clone rfl
        have hsaved : Sane P base saved := hsound.revert.holds
        have hbase : base.deployed clone = none := by
          cases hdep : base.deployed clone with
          | none => rfl
          | some m =>
            have hcoll := hsaved.owned clone m (hsaved.kept clone m hdep)
            have hocc := hsaved.collectors_occupied clone (by rw [hcoll]; rfl)
            rw [hocc] at hfree
            cases hfree
        have hgrows : Grows saved world := hsound.2.2.1
        refine ⟨tell_sound (hsound.commit (initialized_grows hgrows hclone hfree)
          (initialized_sane hsane hclone hbase)), tell_begun ?_, hcustodial⟩
        intro g hg
        exact hbegun g (List.mem_cons_of_mem _ hg)
      · exact leave_safe h
  · split
    · exact leave_safe h
    · exact leave_safe h
  · exact leave_safe h

/-- What a collector that is safe so far sends is in its owner's custody. -/
theorem send_custodial {w : Chain} {msg : Msg} {todo todo' : Todo} {answer : Answer} {st : Storage}
    {balance : ℕ} {input : Calldata} {readOnly : Bool} (hsane : Sane P base w)
    (hfit : Fit P w (.collector self msg data todo answer)) (hst : w.collectors self = some st)
    (hsend : MerchantCollectorV2.step self msg data st balance todo answer =
      .send target value input readOnly todo') {m : Address} (hm : w.deployed self = some m) :
    Outgoing.Custodial m ⟨self, msg.sender, data, target, value, input, w.deployed self⟩ ∧
      msg.sender = m ∧ Withdraws data := by
  have howner : st = ⟨m, true⟩ := by
    have hcoll := hsane.owned self m hm
    rw [hst] at hcoll
    cases hcoll
    rfl
  have hsends : (MerchantCollectorV2.step self msg data st balance todo answer).Sends _ :=
    step_sends
  rw [hsend] at hsends
  obtain ⟨⟨henter, hvalue, htransfer⟩, -⟩ := hsends
  subst howner
  have hsender : msg.sender = m ∧ Withdraws data := by
    rcases hfit.2 m hm with hentry | hcalled
    · exact henter hentry
    · exact hcalled
  refine ⟨⟨?_, ?_⟩, hsender⟩
  · intro hpos
    obtain ⟨htarget, hfunction⟩ := hvalue hpos
    exact ⟨htarget, hsender.1, hfunction⟩
  · intro recipient amount hinput
    exact ⟨htransfer recipient amount hinput, hsender.1⟩

theorem collectorStep_safe (h : Safe P base x) {msg : Msg} {todo : Todo} {answer : Answer}
    (hstack : x.stack = ⟨.collector self msg data todo answer, saved⟩ :: rest) :
    Safe P base (x.collectorStep P self msg data todo answer saved rest) := by
  obtain ⟨world, stack, calls⟩ := x
  subst hstack
  have hsane : Sane P base world := h.sane
  have hfit : Fit P world (.collector self msg data todo answer) := h.sound.fit
  rw [Execution.collectorStep.eq_def]
  split
  · exact leave_safe h
  · rename_i st hst
    split
    · exact leave_safe h
    · rename_i st' word hdone
      have hstores : (MerchantCollectorV2.step self msg data st (world.balance self) todo
        answer).Stores _ := step_stores
      rw [hdone] at hstores
      have hsome : ∀ a, (Function.update world.collectors self (some st') a).isSome =
          (world.collectors a).isSome := by
        intro a
        by_cases heq : a = self
        · subst heq
          rw [Function.update_self, hst]
          rfl
        · rw [Function.update_of_ne heq]
      have howned : ∀ c m, world.deployed c = some m →
          Function.update world.collectors self (some st') c = some ⟨m, true⟩ := by
        intro c m hm
        have hcoll := hsane.owned c m hm
        by_cases heq : c = self
        · subst heq
          rw [hst] at hcoll
          cases hcoll
          rw [hstores rfl, Function.update_self]
        · rw [Function.update_of_ne heq, hcoll]
      let world' : Chain :=
        { world with collectors := Function.update world.collectors self (some st') }
      have hgrows : Grows world world' :=
        ⟨fun _ ha => ha, fun a _ => hsome a, fun _ _ _ hm => hm⟩
      have hsane' : Sane P base world' := by
        refine ⟨hsane.factory_occupied, ?_, ?_, howned, hsane.kept⟩
        · have hnone := hsome P.factory
          rw [hsane.factory_plain] at hnone
          exact Option.isNone_iff_eq_none.mp (Option.isSome_eq_false_iff.mp hnone)
        · intro a ha
          exact hsane.collectors_occupied a ((hsome a).symm.trans ha)
      exact leave_safe (grow_safe h hgrows hsane')
    · rename_i target value input readOnly todo' hsend
      obtain ⟨hsound, hbegun, hcustodial⟩ := h
      apply enter_safe
      refine ⟨hsound.retell fun _ => ?_, ?_, ?_⟩
      · refine ⟨hfit.1, ?_⟩
        intro m hm
        exact .inr (send_custodial hsane hfit hst hsend hm).2
      · intro f hf
        rcases List.mem_cons.mp hf with rfl | hf
        · intro msg data clone hcode
          cases hcode
        · exact hbegun f (List.mem_cons_of_mem _ hf)
      · intro e he m hm
        rcases List.mem_append.mp he with he | he
        · exact hcustodial e he m hm
        · obtain rfl := List.mem_singleton.mp he
          exact (send_custodial hsane hfit hst hsend hm).1

/-- An account comes to be where none was, or sends its first transaction. -/
theorem occupy_grows {w : Chain} {a : Address} :
    Grows w { w with occupied := Function.update w.occupied a true } := by
  refine ⟨?_, fun _ _ => rfl, fun _ _ _ hm => hm⟩
  intro b hb
  by_cases heq : b = a
  · subst heq
    exact Function.update_self _ _ _
  · exact (Function.update_of_ne heq _ _).trans hb

theorem occupy_sane {w : Chain} (h : Sane P base w) {a : Address} :
    Sane P base { w with occupied := Function.update w.occupied a true } :=
  ⟨occupy_grows.occupied _ h.factory_occupied, h.factory_plain,
    fun b hb => occupy_grows.occupied b (h.collectors_occupied b hb), h.owned, h.kept⟩

theorem create_safe {world : Chain} {static : Bool} {calls : List Outgoing} {address : Address}
    (h : Safe P base ⟨world, ⟨.account self static, saved⟩ :: rest, calls⟩) :
    Safe P base (Execution.step P ⟨world, ⟨.account self static, saved⟩ :: rest, calls⟩
      (.create address value)) := by
  have hsane : Sane P base world := h.sane
  let created : Chain :=
    { world.pay self address value with
      occupied := Function.update world.occupied address true }
  have hstep : Execution.step P ⟨world, ⟨.account self static, saved⟩ :: rest, calls⟩
      (.create address value) =
      if static = true ∨ world.occupied address = true ∨ world.balance self < value then
        ⟨world, ⟨.account self static, saved⟩ :: rest, calls⟩
      else
        (⟨world, ⟨.account self static, saved⟩ :: rest, calls⟩ : Execution).push
          (.account address false) created := rfl
  rw [hstep]
  by_cases hno : static = true ∨ world.occupied address = true ∨ world.balance self < value
  · rw [if_pos hno]
    exact h
  · rw [if_neg hno]
    have hocc : ∀ a, world.occupied a = true → a ≠ address := by
      rintro a ha rfl
      exact hno (.inr (.inl ha))
    have hgrows : Grows world created := pay_grows.trans occupy_grows
    have hsane' : Sane P base created := occupy_sane (pay_sane hsane)
    have hplain : world.collectors address = none := by
      cases hcoll : world.collectors address with
      | none => rfl
      | some st => exact absurd rfl (hocc address (hsane.collectors_occupied address (by
          rw [hcoll]
          rfl)))
    have hfit : Fit P created (.account address false) :=
      ⟨Function.update_self _ _ _, hplain, (hocc _ hsane.factory_occupied).symm⟩
    refine push_safe h hgrows hsane' hfit ?_
    intro msg data clone heq
    cases heq

theorem step_transaction {origin : Address} : x.step P (.transaction origin) =
    if x.stack = [] ∧ (x.world.collectors origin).isNone ∧ origin ≠ P.factory then
      let started := { x with
        world := { x.world with occupied := Function.update x.world.occupied origin true } }
      started.push (.account origin false) started.world
    else x := rfl

theorem transaction_safe (h : Safe P base x) {origin : Address} :
    Safe P base (x.step P (.transaction origin)) := by
  rw [step_transaction]
  split
  · rename_i hok
    obtain ⟨-, horigin, hfactory⟩ := hok
    have hsane := occupy_sane (a := origin) h.sane
    refine push_safe (grow_safe h occupy_grows hsane) (.refl _) hsane
      ⟨Function.update_self _ _ _, Option.isNone_iff_eq_none.mp horigin, hfactory⟩ ?_
    intro msg data clone heq
    cases heq
  · exact h

theorem step_safe (h : Safe P base x) (event : Event) : Safe P base (x.step P event) := by
  obtain ⟨world, stack, calls⟩ := x
  have hsane : Sane P base world := h.sane
  cases event with
  | transaction origin => exact transaction_safe h
  | mint target amount =>
    match stack, h with
    | [], h => exact grow_safe h (.of_eq rfl rfl rfl) (hsane.of_eq rfl rfl rfl)
    | _ :: _, h => exact h
  | call target value data =>
    match stack, h with
    | [], h => exact h
    | ⟨.account _ _, _⟩ :: _, h => exact enter_safe h
    | ⟨.collector _ _ _ _ _, _⟩ :: _, h => exact h
    | ⟨.factory _ _ _, _⟩ :: _, h => exact h
  | staticcall target data =>
    match stack, h with
    | [], h => exact h
    | ⟨.account _ _, _⟩ :: _, h => exact enter_safe h
    | ⟨.collector _ _ _ _ _, _⟩ :: _, h => exact h
    | ⟨.factory _ _ _, _⟩ :: _, h => exact h
  | create address value =>
    match stack, h with
    | [], h => exact h
    | ⟨.collector _ _ _ _ _, _⟩ :: _, h => exact h
    | ⟨.factory _ _ _, _⟩ :: _, h => exact h
    | ⟨.account self static, saved⟩ :: rest, h =>
      exact create_safe h
  | selfdestruct target =>
    match stack, h with
    | [], h => exact h
    | ⟨.collector _ _ _ _ _, _⟩ :: _, h => exact h
    | ⟨.factory _ _ _, _⟩ :: _, h => exact h
    | ⟨.account self static, saved⟩ :: rest, h =>
      cases static with
      | true => exact h
      | false => exact grow_safe h pay_grows (pay_sane hsane)
  | finish word =>
    match stack, h with
    | [], h => exact h
    | ⟨.account _ _, _⟩ :: _, h => exact leave_safe h
    | ⟨.collector _ _ _ _ _, _⟩ :: _, h => exact h
    | ⟨.factory _ _ _, _⟩ :: _, h => exact h
  | revert =>
    match stack, h with
    | [], h => exact h
    | ⟨.account _ _, _⟩ :: _, h => exact leave_safe h
    | ⟨.collector _ _ _ _ _, _⟩ :: _, h => exact leave_safe h
    | ⟨.factory _ _ _, _⟩ :: _, h => exact leave_safe h
  | go =>
    match stack, h with
    | [], h => exact h
    | ⟨.account _ _, _⟩ :: _, h => exact h
    | ⟨.collector _ _ _ _ _, _⟩ :: _, h => exact collectorStep_safe h rfl
    | ⟨.factory _ _ _, _⟩ :: _, h => exact deployStep_safe h rfl

theorem run_safe (h : Safe P base x) (events : List Event) : Safe P base (x.run P events) := by
  induction events generalizing x with
  | nil => exact h
  | cons event events ih => exact ih (step_safe h event)

/-- The call on top has failed: its world is put back. -/
def Restored (x x' : Execution) : Prop :=
  ∃ f rest, x.stack = f :: rest ∧ x'.world = f.saved

theorem pay_falls {w : Chain} {c : Address} (hcovered : value ≤ w.balance sender)
    (h : (w.pay sender target value).balance c < w.balance c) :
    c = sender ∧ (w.pay sender target value).balance c + value = w.balance c := by
  let paid := Function.update w.balance sender (w.balance sender - value)
  have hbalance : (w.pay sender target value).balance c =
      Function.update paid target (paid target + value) c := rfl
  have hpaid : ∀ a, paid a = if a = sender then w.balance sender - value else w.balance a :=
    fun a => Function.update_apply _ _ _ a
  rw [hbalance, Function.update_apply] at h ⊢
  by_cases htarget : c = target
  · rw [if_pos htarget, hpaid, ← htarget] at h
    split at h
    · rename_i heq
      subst heq
      omega
    · omega
  · rw [if_neg htarget, hpaid] at h ⊢
    by_cases heq : c = sender
    · subst heq
      rw [if_pos rfl]
      exact ⟨rfl, by omega⟩
    · rw [if_neg heq] at h
      omega

theorem enter_calls {static : Bool} :
    (x.enter P sender target value data static).calls = x.calls := by
  rw [Execution.enter]
  split
  · rfl
  · split
    · rfl
    · split
      · rfl
      · split
        · rfl
        · rfl

theorem enter_falls {static : Bool} {c : Address}
    (h : (x.enter P sender target value data static).world.balance c < x.world.balance c) :
    c = sender ∧ (x.enter P sender target value data static).world.balance c + value =
      x.world.balance c := by
  by_cases hfails : x.world.balance sender < value ∨ static = true ∧ value ≠ 0
  · rw [Execution.enter, if_pos hfails] at h
    exact absurd h (Nat.lt_irrefl _)
  · have hworld : (x.enter P sender target value data static).world =
        x.world.pay sender target value := by
      rw [Execution.enter, if_neg hfails]
      split
      · rfl
      · split
        · rfl
        · split
          · rfl
          · rfl
    rw [hworld] at h ⊢
    refine pay_falls ?_ h
    by_contra hpoor
    exact hfails (.inl (Nat.lt_of_not_le hpoor))

theorem leave_falls {success : Bool} {word : Option ℕ} {c : Address}
    (h : (x.leave success word).world.balance c < x.world.balance c) :
    Restored x (x.leave success word) := by
  obtain ⟨world, stack, calls⟩ := x
  cases stack with
  | nil => exact absurd h (Nat.lt_irrefl _)
  | cons f rest =>
    cases success with
    | true => exact absurd h (Nat.lt_irrefl _)
    | false => exact ⟨f, rest, rfl, rfl⟩

theorem leave_world {f : Frame Code Chain} (hstack : x.stack = f :: rest) {w : Chain}
    {word : Option ℕ} : (({ x with world := w } : Execution).leave true word).world = w := by
  rw [Execution.leave, hstack]
  rfl

/-- The clone has just made one call, and its balance fell by what it sent. -/
def Sent (c m : Address) (x x' : Execution) : Prop :=
  ∃ e, x'.calls = x.calls ++ [e] ∧ e.collector = c ∧ e.merchant = some m ∧ e.Custodial m ∧
    0 < e.value ∧ x'.world.balance c + e.value = x.world.balance c

theorem deployStep_falls {msg : Msg} {clone : Option Address} {c : Address}
    (hstack : x.stack = ⟨.factory msg data clone, saved⟩ :: rest)
    (h : (x.deployStep P msg data clone saved rest).world.balance c < x.world.balance c) :
    Restored x (x.deployStep P msg data clone saved rest) := by
  rw [Execution.deployStep.eq_def] at h ⊢
  split at h
  · extract_lets at h ⊢
    split at h
    · rename_i hrefused
      rw [if_pos hrefused]
      exact leave_falls h
    · exact absurd h (Nat.lt_irrefl _)
  · split at h
    · exact leave_falls h
    · split at h
      · rw [leave_world hstack] at h
        exact absurd h (Nat.lt_irrefl _)
      · exact leave_falls h
  · split at h
    · rename_i hvalue
      rw [if_pos hvalue]
      exact leave_falls h
    · rename_i hvalue
      rw [if_neg hvalue]
      exact leave_falls h
  · exact leave_falls h

theorem collectorStep_falls (h : Safe P base x) {msg : Msg} {todo : Todo} {answer : Answer}
    {c m : Address} (hstack : x.stack = ⟨.collector self msg data todo answer, saved⟩ :: rest)
    (hm : x.world.deployed c = some m)
    (hfall : (x.collectorStep P self msg data todo answer saved rest).world.balance c <
      x.world.balance c) :
    Restored x (x.collectorStep P self msg data todo answer saved rest) ∨
      Sent c m x (x.collectorStep P self msg data todo answer saved rest) := by
  have hfit : Fit P x.world (.collector self msg data todo answer) := by
    have hsound := h.sound
    rw [hstack] at hsound
    exact hsound.fit
  rw [Execution.collectorStep.eq_def] at hfall ⊢
  split at hfall
  · exact .inl (leave_falls hfall)
  · rename_i st hst
    split at hfall
    · exact .inl (leave_falls hfall)
    · rw [leave_world hstack] at hfall
      exact absurd hfall (Nat.lt_irrefl _)
    · rename_i target value input readOnly todo' hsend
      obtain ⟨hself, hvalue⟩ := enter_falls hfall
      subst hself
      refine .inr ⟨_, enter_calls, rfl, hm, ?_, ?_, hvalue⟩
      · exact (send_custodial h.sane hfit hst hsend hm).1
      · refine Nat.pos_of_ne_zero ?_
        rintro rfl
        exact Nat.ne_of_lt hfall hvalue

/-- A running account is no clone, so what it pays is not a clone's. -/
theorem account_ne {world : Chain} {static : Bool} {calls : List Outgoing} {c m : Address}
    (h : Safe P base ⟨world, ⟨.account self static, saved⟩ :: rest, calls⟩)
    (hm : world.deployed c = some m) : c ≠ self := by
  rintro rfl
  have hcoll := h.sane.owned c m hm
  have hfit : Fit P world (.account c static) := h.sound.fit
  rw [hfit.2.1] at hcoll
  cases hcoll

theorem transaction_balance {origin : Address} :
    (x.step P (.transaction origin)).world.balance = x.world.balance := by
  rw [step_transaction]
  split
  · rfl
  · rfl

theorem mint_balance {target c : Address} {amount : ℕ} :
    x.world.balance c ≤ (x.step P (.mint target amount)).world.balance c := by
  obtain ⟨world, stack, calls⟩ := x
  match stack with
  | [] =>
    show world.balance c ≤
      Function.update world.balance target (world.balance target + amount) c
    rw [Function.update_apply]
    split
    · rename_i heq
      subst heq
      exact Nat.le_add_right _ _
    · exact Nat.le_refl _
  | _ :: _ => exact Nat.le_refl _

theorem create_falls {world : Chain} {static : Bool} {calls : List Outgoing} {address c : Address}
    (h : (Execution.step P ⟨world, ⟨.account self static, saved⟩ :: rest, calls⟩
      (.create address value)).world.balance c < world.balance c) : c = self := by
  have hstep : (Execution.step P ⟨world, ⟨.account self static, saved⟩ :: rest, calls⟩
      (.create address value)).world.balance =
      if static = true ∨ world.occupied address = true ∨ world.balance self < value then
        world.balance
      else (world.pay self address value).balance := by
    by_cases hno : static = true ∨ world.occupied address = true ∨ world.balance self < value
    · rw [if_pos hno]
      exact congrArg (fun x : Execution => x.world.balance) (if_pos hno)
    · rw [if_neg hno]
      exact congrArg (fun x : Execution => x.world.balance) (if_neg hno)
  rw [hstep] at h
  split at h
  · exact absurd h (Nat.lt_irrefl _)
  · rename_i hok
    refine (pay_falls ?_ h).1
    by_contra hpoor
    exact hok (.inr (.inr (Nat.lt_of_not_le hpoor)))

theorem step_falls (h : Safe P base x) (event : Event) {c m : Address}
    (hm : x.world.deployed c = some m)
    (hfall : (x.step P event).world.balance c < x.world.balance c) :
    Restored x (x.step P event) ∨ Sent c m x (x.step P event) := by
  obtain ⟨world, stack, calls⟩ := x
  have hidle : ¬ world.balance c < world.balance c := Nat.lt_irrefl _
  cases event with
  | transaction origin =>
    rw [transaction_balance] at hfall
    exact absurd hfall hidle
  | mint target amount => exact absurd hfall (Nat.not_lt_of_le mint_balance)
  | call target value data =>
    match stack, h with
    | [], _ => exact absurd hfall hidle
    | ⟨.collector _ _ _ _ _, _⟩ :: _, _ => exact absurd hfall hidle
    | ⟨.factory _ _ _, _⟩ :: _, _ => exact absurd hfall hidle
    | ⟨.account self static, saved⟩ :: rest, h =>
      exact absurd (enter_falls hfall).1 (account_ne h hm)
  | staticcall target data =>
    match stack, h with
    | [], _ => exact absurd hfall hidle
    | ⟨.collector _ _ _ _ _, _⟩ :: _, _ => exact absurd hfall hidle
    | ⟨.factory _ _ _, _⟩ :: _, _ => exact absurd hfall hidle
    | ⟨.account self static, saved⟩ :: rest, h =>
      exact absurd (enter_falls hfall).1 (account_ne h hm)
  | create address value =>
    match stack, h with
    | [], _ => exact absurd hfall hidle
    | ⟨.collector _ _ _ _ _, _⟩ :: _, _ => exact absurd hfall hidle
    | ⟨.factory _ _ _, _⟩ :: _, _ => exact absurd hfall hidle
    | ⟨.account self static, saved⟩ :: rest, h =>
      exact absurd (create_falls hfall) (account_ne h hm)
  | selfdestruct target =>
    match stack, h with
    | [], _ => exact absurd hfall hidle
    | ⟨.collector _ _ _ _ _, _⟩ :: _, _ => exact absurd hfall hidle
    | ⟨.factory _ _ _, _⟩ :: _, _ => exact absurd hfall hidle
    | ⟨.account self true, saved⟩ :: rest, h => exact absurd hfall hidle
    | ⟨.account self false, saved⟩ :: rest, h =>
      exact absurd (pay_falls (Nat.le_refl _) hfall).1 (account_ne h hm)
  | finish word =>
    match stack, h with
    | [], _ => exact absurd hfall hidle
    | ⟨.collector _ _ _ _ _, _⟩ :: _, _ => exact absurd hfall hidle
    | ⟨.factory _ _ _, _⟩ :: _, _ => exact absurd hfall hidle
    | ⟨.account _ _, _⟩ :: _, _ => exact .inl (leave_falls hfall)
  | revert =>
    match stack, h with
    | [], _ => exact absurd hfall hidle
    | ⟨.collector _ _ _ _ _, _⟩ :: _, _ => exact .inl (leave_falls hfall)
    | ⟨.factory _ _ _, _⟩ :: _, _ => exact .inl (leave_falls hfall)
    | ⟨.account _ _, _⟩ :: _, _ => exact .inl (leave_falls hfall)
  | go =>
    match stack, h with
    | [], _ => exact absurd hfall hidle
    | ⟨.account _ _, _⟩ :: _, _ => exact absurd hfall hidle
    | ⟨.collector _ _ _ _ _, _⟩ :: _, h => exact collectorStep_falls h rfl hm hfall
    | ⟨.factory _ _ _, _⟩ :: _, _ => exact .inl (deployStep_falls rfl hfall)

theorem Fresh.safe {w : Chain} (h : Fresh P w) : Safe P w ⟨w, [], []⟩ := by
  have hsane : Sane P w w := by
    refine ⟨h.factory_occupied, h.factory_plain, h.collectors_occupied, ?_, fun _ _ hm => hm⟩
    intro c m hm
    rw [h.undeployed c] at hm
    cases hm
  refine ⟨hsane, ?_, ?_⟩
  · intro f hf
    exact absurd hf List.not_mem_nil
  · intro e he
    exact absurd he List.not_mem_nil

/-- Between two transactions nothing deployed so far can be lost any more. -/
theorem Safe.settled (h : Safe P base x) (hidle : x.stack = []) : Safe P x.world x := by
  have hsane := h.sane
  have hsane' : Sane P x.world x.world :=
    ⟨hsane.factory_occupied, hsane.factory_plain, hsane.collectors_occupied, hsane.owned,
      fun _ _ hm => hm⟩
  refine ⟨?_, h.begun, h.custodial⟩
  rw [hidle]
  exact hsane'

/-- Whatever happens, in however many transactions and calls within calls, a
clone belongs to the merchant it was deployed for; between two transactions it
does so for good. Each of its calls is in the merchant's custody, and its
balance falls by nothing but such a call, or where a failed call is undone. -/
theorem clone_custody (P : Deployment) (w : Chain) (hfresh : Fresh P w) (events : List Event)
    (c m : Address) :
    let x := (⟨w, [], []⟩ : Execution).run P events
    (x.world.deployed c = some m → x.world.collectors c = some ⟨m, true⟩) ∧
    (x.stack = [] → x.world.deployed c = some m → ∀ later,
      (x.run P later).world.deployed c = some m ∧
        (x.run P later).world.collectors c = some ⟨m, true⟩) ∧
    (∀ e ∈ x.calls, e.merchant = some m → e.Custodial m) ∧
    (∀ event, x.world.deployed c = some m →
      (x.step P event).world.balance c < x.world.balance c →
      Restored x (x.step P event) ∨ Sent c m x (x.step P event)) := by
  intro x
  have hsafe : Safe P w x := run_safe hfresh.safe events
  refine ⟨hsafe.sane.owned c m, ?_, fun e he hm => hsafe.custodial e he m hm, ?_⟩
  · intro hidle hm later
    have hlater := run_safe (hsafe.settled hidle) later
    have hkept := hlater.sane.kept c m hm
    exact ⟨hkept, hlater.sane.owned c m hkept⟩
  · intro event hm hfall
    exact step_falls hsafe event hm hfall

-- A merchant deploys a clone, a payer sends money to it, and the merchant
-- withdraws it, calling back in the middle.

def sampleDeployment : Deployment := ⟨1, 2, fun n => BitVec.ofNat 160 (100 + n)⟩

def sampleChain : Chain where
  balance a := if a = 8 then 10 else 0
  collectors _ := none
  occupied a := a == 1 || a == 50
  clones := 0
  deployed _ := none

def sampleEvents : List Event :=
  [.transaction 7, .call 1 0 (.deploy 7), .go, .go, .finish none,
   .transaction 8, .call 100 5 .empty, .go, .finish none,
   .transaction 7, .call 100 0 (.withdrawAll [50]), .go,
   .call 100 0 .withdrawNative, .go, .finish none, .go, .finish (some 3), .go, .finish none,
   .go, .finish none]

theorem sampleChain_fresh : Fresh sampleDeployment sampleChain := by
  refine ⟨rfl, rfl, ?_, fun _ => rfl⟩
  intro a ha
  cases ha

theorem clone_custody_sample :
    let x := (⟨sampleChain, [], []⟩ : Execution).run sampleDeployment sampleEvents
    x.calls.map (fun e => (e.target, e.value, e.input)) =
      [(7, 5, .empty), (50, 0, .balanceOf 100), (50, 0, .transfer 7 3)] ∧
    x.world.collectors 100 = some ⟨7, true⟩ ∧
    ∀ e ∈ x.calls, e.merchant = some 7 → e.Custodial 7 := by
  intro x
  have hcustody := clone_custody sampleDeployment sampleChain sampleChain_fresh sampleEvents 100 7
  refine ⟨by decide +kernel, hcustody.1 (by decide +kernel), hcustody.2.2.1⟩

end

end CryptoLink.Contracts
