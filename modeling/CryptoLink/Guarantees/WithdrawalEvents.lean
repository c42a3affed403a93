import CryptoLink.Contracts.Tokens
import CryptoLink.Guarantees.Custody

/-!
# Withdrawal events

A collector looks at whether a transfer failed, not at what it answered. Its
events add up to what the owner has gained as far as no token answers false.
-/

namespace CryptoLink.Contracts

open MerchantCollectorV2

/-- What the events say was withdrawn of a token. -/
def announced (token : Address) (events : List WithdrewToken) : ℕ :=
  ((events.filter fun e => e.token = token).map WithdrewToken.amount).sum

/-- What was announced of a token that answered false. -/
def Exchange.refused (token : Address) (e : Exchange) : ℕ :=
  match e.input with
  | .transfer _ amount => if e.target = token ∧ e.response.verdict = .refuses then amount else 0
  | _ => 0

/-- What the owner has gained of a token while he was paid, other than by
withdrawals of this collector. -/
def Exchange.drift (token owner : Address) (e : Exchange) : Int :=
  match e.input with
  | .empty => (e.response.ledger token owner : Int) - e.before token owner -
      announced token e.response.nested
  | _ => 0

def Outcome.refused (token : Address) (o : Outcome) : ℕ :=
  (o.exchanges.map (Exchange.refused token)).sum

def Outcome.drift (token owner : Address) (o : Outcome) : Int :=
  (o.exchanges.map (Exchange.drift token owner)).sum

theorem announced_nil (token : Address) : announced token [] = 0 := rfl

theorem announced_append (token : Address) (events events' : List WithdrewToken) :
    announced token (events ++ events') = announced token events + announced token events' := by
  simp [announced]

section

variable {l : Ledger} {token sender recipient : Address} {amount : ℕ}

theorem move_recipient (h : sender ≠ recipient) (t : Address) :
    l.move token sender recipient amount t recipient =
      l t recipient + if t = token then amount else 0 := by
  unfold Ledger.move
  by_cases ht : t = token
  · subst ht
    rw [Function.update_self, Function.update_self, Function.update_of_ne h.symm, if_pos rfl]
  · rw [Function.update_of_ne ht, if_neg ht, Nat.add_zero]

end

/-- What a function waits for is what it has sent. -/
inductive Awaits (self owner target : Address) : Calldata → Todo → Prop
  | paid (rest : Option (List Address)) : Awaits self owner target .empty (.paid rest)
  | asked (rest : Option (List Address)) :
      Awaits self owner target (.balanceOf self) (.asked target rest)
  | sent (amount : ℕ) (rest : Option (List Address)) :
      Awaits self owner target (.transfer owner amount) (.sent target amount rest)

section

variable {self target : Address} {st : Storage} {tokens : List Address} {value : ℕ}
  {input : Calldata} {readOnly : Bool} {todo : Todo} {rest : Option (List Address)}

theorem withdrawTokens_send
    (h : withdrawTokens self st tokens = .send target value input readOnly todo) :
    ∃ rest, input = .balanceOf self ∧ todo = .asked target (some rest) ∧
      rest.length < tokens.length := by
  induction tokens with
  | nil => cases h
  | cons token tokens ih =>
    rw [withdrawTokens] at h
    split at h
    · obtain ⟨rest, hinput, htodo, hlt⟩ := ih h
      exact ⟨rest, hinput, htodo, Nat.lt_succ_of_lt hlt⟩
    · cases h
      exact ⟨tokens, rfl, rfl, Nat.lt_succ_self _⟩

theorem proceed_send
    (h : MerchantCollectorV2.proceed self st rest = .send target value input readOnly todo) :
    ∃ rest', input = .balanceOf self ∧ todo = .asked target (some rest') ∧
      rest'.length < (rest.getD []).length := by
  cases rest with
  | none => cases h
  | some tokens => exact withdrawTokens_send h

variable {msg : Msg} {body : Step}

theorem nonPayable_send (h : nonPayable msg body = .send target value input readOnly todo) :
    body = .send target value input readOnly todo := by
  rw [nonPayable] at h
  split at h
  · cases h
  · exact h

theorem onlyOwner_send (h : onlyOwner msg st body = .send target value input readOnly todo) :
    body = .send target value input readOnly todo := by
  rw [onlyOwner] at h
  split at h
  · exact h
  · cases h

theorem written_send (h : written msg body = .send target value input readOnly todo) :
    body = .send target value input readOnly todo := by
  rw [written] at h
  split at h
  · cases h
  · exact h

end

namespace Visit

/-- How many calls there can still be. -/
def callsLeft (c : Visit) : Todo → ℕ
  | .enter =>
      match c.input with
      | .withdrawAll tokens => 2 * tokens.length + 1
      | _ => 2
  | .paid rest => 2 * (rest.getD []).length
  | .asked _ rest => 2 * (rest.getD []).length + 1
  | .sent _ _ rest => 2 * (rest.getD []).length

variable {c : Visit} {target : Address} {value : ℕ} {input : Calldata} {readOnly : Bool}
  {todo todo' : Todo} {answer : Answer}

theorem enter_send (h : step c.self c.msg c.input c.storage c.balance .enter answer =
    .send target value input readOnly todo') :
    Awaits c.self c.storage.owner target input todo' ∧
      c.callsLeft todo' < c.callsLeft .enter := by
  unfold callsLeft
  cases hinput : c.input with
  | withdrawNative =>
    rw [hinput] at h
    have hbody := onlyOwner_send (nonPayable_send h)
    split at hbody
    · cases hbody
      exact ⟨.paid _, Nat.two_pos⟩
    · cases hbody
  | withdrawToken token =>
    rw [hinput] at h
    have hbody := onlyOwner_send (nonPayable_send h)
    split at hbody
    · cases hbody
    · cases hbody
      exact ⟨.asked _, Nat.one_lt_two⟩
  | withdrawAll tokens =>
    rw [hinput] at h
    have hbody := onlyOwner_send (nonPayable_send h)
    split at hbody
    · cases hbody
      exact ⟨.paid _, Nat.lt_succ_self _⟩
    · obtain ⟨rest, rfl, rfl, hlt⟩ := withdrawTokens_send hbody
      refine ⟨.asked _, ?_⟩
      show 2 * rest.length + 1 < 2 * tokens.length + 1
      omega
  | empty =>
    rw [hinput] at h
    have hbody := written_send h
    cases hbody
  | initializeOwner owner =>
    rw [hinput] at h
    have hbody := nonPayable_send h
    split at hbody
    · cases hbody
    · split at hbody
      · cases hbody
      · have hdone := written_send hbody
        cases hdone
  | owner =>
    rw [hinput] at h
    have hbody := nonPayable_send h
    cases hbody
  | deploy merchantOwner => rw [hinput] at h; cases h
  | implementation => rw [hinput] at h; cases h
  | balanceOf account => rw [hinput] at h; cases h
  | transfer recipient amount => rw [hinput] at h; cases h
  | other => rw [hinput] at h; cases h

/-- What a step sends it waits for, and each call leaves fewer to come. -/
theorem step_send (h : step c.self c.msg c.input c.storage c.balance todo answer =
    .send target value input readOnly todo') :
    Awaits c.self c.storage.owner target input todo' ∧ c.callsLeft todo' < c.callsLeft todo := by
  -- the loop goes on with a question
  have hasks : ∀ rest : Option (List Address),
      MerchantCollectorV2.proceed c.self c.storage rest = .send target value input readOnly todo' →
      Awaits c.self c.storage.owner target input todo' ∧
        c.callsLeft todo' < 2 * (rest.getD []).length := by
    intro rest hproceed
    obtain ⟨rest', rfl, rfl, hlt⟩ := proceed_send hproceed
    refine ⟨.asked _, ?_⟩
    show 2 * rest'.length + 1 < 2 * (rest.getD []).length
    omega
  cases todo with
  | enter => exact enter_send h
  | paid rest =>
    replace h : afterPayment c.self c.msg c.storage rest answer = _ := h
    rw [afterPayment] at h
    split at h
    · exact hasks rest (written_send h)
    · cases h
  | asked token rest =>
    replace h : afterBalance c.self c.storage token rest answer = _ := h
    rw [afterBalance.eq_def] at h
    extract_lets bal at h
    split at h
    · cases h
      exact ⟨.sent _ _, Nat.lt_succ_self _⟩
    · cases rest with
      | none => cases h
      | some tokens =>
        obtain ⟨hawaits, hfewer⟩ := hasks (some tokens) h
        exact ⟨hawaits, Nat.lt_succ_of_lt hfewer⟩
  | sent token amount rest =>
    replace h : afterTransfer c.self c.msg c.storage rest answer = _ := h
    rw [afterTransfer] at h
    split at h
    · exact hasks rest (written_send h)
    · cases h

end Visit

/-- A transfer moves what is announced once it is answered, or it was refused. -/
theorem settle_transfer (r : Response) {self : Address} {st : Storage} (target : Address)
    (amount : ℕ) (rest : Option (List Address)) (l : Ledger) (howner : st.owner ≠ self)
    (t : Address) :
    (r.settle self target (.transfer st.owner amount) l).2.1 t st.owner +
        Exchange.refused t ⟨target, .transfer st.owner amount, l, r⟩ =
      l t st.owner + announced t (emitted st (.sent target amount rest)
        (r.settle self target (.transfer st.owner amount) l).1) := by
  have hannounced : announced t [⟨target, st.owner, amount⟩] =
      if target = t then amount else 0 := by
    by_cases ht : target = t
    · simp [announced, ht]
    · simp [announced, ht]
  cases hverdict : r.verdict with
  | moves answersTrue =>
    simp only [Response.settle, Verdict.settle, hverdict, Exchange.refused, emitted]
    by_cases hcovered : amount ≤ l target self
    · simp only [if_pos hcovered, if_true, hannounced, move_recipient howner.symm]
      simp [eq_comm]
    · simp [announced, if_neg hcovered]
  | refuses =>
    simp only [Response.settle, Verdict.settle, hverdict, Exchange.refused, emitted, if_true,
      hannounced, and_true]
  | reverts =>
    simp [Response.settle, Verdict.settle, hverdict, Exchange.refused, emitted, announced]

/-- One call and what it leaves to announce: what is announced and not gained
was refused, and what is gained and not announced the owner has from elsewhere. -/
theorem settle_accounts (r : Response) {self target : Address} {st : Storage} {input : Calldata}
    {todo : Todo} (l : Ledger) (howner : st.owner ≠ self)
    (hawaits : Awaits self st.owner target input todo) (t : Address) :
    (announced t (r.settle self target input l).2.2 : Int) +
        announced t (emitted st todo (r.settle self target input l).1) -
        ((r.settle self target input l).2.1 t st.owner - l t st.owner) =
      Exchange.refused t ⟨target, input, l, r⟩ -
        Exchange.drift t st.owner ⟨target, input, l, r⟩ := by
  cases hawaits with
  | paid rest =>
    simp only [Response.settle, Exchange.refused, Exchange.drift, emitted, announced_nil]
    omega
  | asked rest =>
    simp [Response.settle, Exchange.refused, Exchange.drift, emitted, announced_nil]
  | sent amount rest =>
    have hmoved := settle_transfer r target amount rest l howner t
    have hnested : announced t (r.settle self target (.transfer st.owner amount) l).2.2 = 0 :=
      announced_nil t
    have hdrift : Exchange.drift t st.owner ⟨target, .transfer st.owner amount, l, r⟩ = 0 := rfl
    omega

namespace Visit

variable {c : Visit} {responses : List Response} {l : Ledger} {o : Outcome}

/-- What the calls from `todo` on announce and gain; the event of the transfer
before is still to come. -/
theorem resume_accounts (howner : c.storage.owner ≠ c.self) {todo : Todo} {answer : Answer}
    (h : c.resume responses todo answer l = .returned o) (t : Address) :
    (announced t o.events : Int) - (o.ledger t c.storage.owner - l t c.storage.owner) =
      announced t (emitted c.storage todo answer) + o.refused t -
        o.drift t c.storage.owner := by
  induction responses generalizing todo answer l o with
  | nil =>
    rw [resume] at h
    split at h
    · cases h
    · cases h
      simp [Outcome.refused, Outcome.drift]
    · cases h
  | cons r responses ih =>
    rw [resume] at h
    split at h
    · cases h
    · cases h
      simp [Outcome.refused, Outcome.drift]
    · rename_i target value input readOnly todo' hstep
      have hone := settle_accounts r l howner (step_send hstep).1 t
      dsimp only at h
      generalize r.settle c.self target input l = settled at h hone
      cases hrest : c.resume responses todo' settled.1 settled.2.1 with
      | reverted =>
        rw [hrest] at h
        cases h
      | waiting =>
        rw [hrest] at h
        cases h
      | returned rest =>
        rw [hrest] at h
        cases h
        have hlater := ih hrest
        simp only [announced_append, Outcome.refused, Outcome.drift, List.map_cons, List.sum_cons]
          at hlater ⊢
        simp only [Int.natCast_add] at hlater ⊢
        omega

/-- Whoever calls a withdrawal is the owner, and is not the collector. -/
theorem owner_or_idle (h : c.run responses l = .returned o) :
    c.storage.owner ≠ c.self ∨ o.exchanges = [] ∧ o.events = [] ∧ o.ledger = l := by
  rw [run] at h
  unfold resume at h
  split at h
  · cases h
  · cases h
    exact .inr ⟨rfl, rfl, rfl⟩
  · rename_i hstep
    have hsends : (MerchantCollectorV2.step c.self c.msg c.input c.storage c.balance .enter
        ⟨true, none⟩).Sends _ := step_sends
    rw [hstep] at hsends
    obtain ⟨hsender, -⟩ := hsends.1.1 rfl
    left
    rw [← hsender]
    exact c.outside

/-- Once a call has returned, its events of a token add up to what the owner has
gained of it exactly if what the token refused by answering false equals what
the owner has from elsewhere. Where he leaves the token alone while he is paid,
that is if it refused nothing. -/
theorem withdrawal_events_true_iff (c : Visit) (responses : List Response) (l : Ledger)
    (o : Outcome) (h : c.run responses l = .returned o) (token : Address) :
    ((announced token o.events : Int) = o.ledger token c.storage.owner - l token c.storage.owner ↔
        (o.refused token : Int) = o.drift token c.storage.owner) ∧
      (o.drift token c.storage.owner = 0 →
        ((announced token o.events : Int) =
            o.ledger token c.storage.owner - l token c.storage.owner ↔ o.refused token = 0)) := by
  rcases owner_or_idle h with howner | ⟨hexchanges, hevents, hledger⟩
  · have haccounts := resume_accounts howner h token
    have hentered : announced token (emitted c.storage .enter ⟨true, none⟩) = 0 :=
      announced_nil token
    constructor
    · omega
    · intro hdrift
      omega
  · simp [Outcome.refused, Outcome.drift, hexchanges, hevents, hledger, announced]

/-- With a response for every call a visit returns or reverts. -/
theorem run_ends (c : Visit) (responses : List Response) (l : Ledger)
    (henough : c.callsLeft .enter ≤ responses.length) : c.run responses l ≠ .waiting := by
  have hends : ∀ (responses : List Response) (todo : Todo) (answer : Answer) (l : Ledger),
      c.callsLeft todo ≤ responses.length → c.resume responses todo answer l ≠ .waiting := by
    intro responses
    induction responses with
    | nil =>
      intro todo answer l hlen
      unfold resume
      split
      · intro h
        cases h
      · intro h
        cases h
      · rename_i hstep
        have hfewer := (step_send hstep).2
        simp only [List.length_nil] at hlen
        omega
    | cons r responses ih =>
      intro todo answer l hlen
      unfold resume
      split
      · intro h
        cases h
      · intro h
        cases h
      · rename_i target value input readOnly todo' hstep
        have hfewer := (step_send hstep).2
        have hrest := ih todo' (r.settle c.self target input l).1
          (r.settle c.self target input l).2.1 (by simp only [List.length_cons] at hlen; omega)
        dsimp only
        cases hresult : c.resume responses todo' (r.settle c.self target input l).1
            (r.settle c.self target input l).2.1 with
        | reverted => exact (fun h => by cases h)
        | returned o => exact (fun h => by cases h)
        | waiting => exact absurd hresult hrest
  exact hends responses .enter ⟨true, none⟩ l henough

end Visit

/-- Fifty of token 3 in collector 1, withdrawn by its owner 2. -/
def sampleVisit : Visit where
  self := 1
  msg := ⟨2, 0, false⟩
  input := .withdrawToken 3
  storage := ⟨2, true⟩
  balance := 0
  outside := by decide

def sampleLedger : Ledger := fun token account => if token = 3 ∧ account = 1 then 50 else 0

def fiftyThere (verdict : Verdict) : List Response :=
  [⟨⟨true, some 50⟩, sampleLedger, [], verdict⟩, ⟨⟨true, none⟩, sampleLedger, [], verdict⟩]

theorem withdrawal_events_true_iff_sample : ∃ o,
    sampleVisit.run (fiftyThere (.moves true)) sampleLedger = .returned o ∧
      o.events = [⟨3, 2, 50⟩] ∧
      (((announced 3 o.events : Int) = o.ledger 3 2 - sampleLedger 3 2 ↔
          (o.refused 3 : Int) = o.drift 3 2) ∧
        (o.drift 3 2 = 0 →
          ((announced 3 o.events : Int) = o.ledger 3 2 - sampleLedger 3 2 ↔ o.refused 3 = 0))) :=
  ⟨_, rfl, rfl, Visit.withdrawal_events_true_iff sampleVisit (fiftyThere (.moves true))
    sampleLedger _
    rfl 3⟩

/-- The token refuses, the collector announces fifty all the same. -/
theorem refused_withdrawal_is_announced :
    ¬ ∀ (c : Visit) (responses : List Response) (l : Ledger) (o : Outcome) (token : Address),
      c.run responses l = .returned o →
        (announced token o.events : Int) = o.ledger token c.storage.owner - l token
          c.storage.owner := by
  intro h
  have hfalse := h sampleVisit (fiftyThere .refuses) sampleLedger _ 3 rfl
  revert hfalse
  decide

end CryptoLink.Contracts
