import CryptoLink.Services.Receipts
import Mathlib.Data.List.Nodup

/-!
# Receipt failover

An endpoint that refused stays demoted for the rest of a short lookup, since a
dial skips it and touches no other entry. So the requests go to different
endpoints, and only the last one can have been answered.
-/

namespace CryptoLink

namespace Receipts

open RPC

variable {R : Type}

/-- Marked as failed at some reading of the clock. -/
def Demoted (o : Outside) (health : HealthMap) (url : String) : Prop :=
  ∃ h, health url = some h ∧ h.healthy = false ∧ ∃ i, h.failedAt = o.now i

/-- Every two readings of the clock are less than the recovery interval apart. -/
def Short (o : Outside) : Prop := ∀ i j, o.now j - o.now i < healthRecoveryInterval

theorem isHealthy_of_demoted {o : Outside} {p : Provider} {url : String} (hshort : Short o)
    (h : Demoted o p.health url) : p.isHealthy o url = false := by
  obtain ⟨h, hentry, hbad, i, hfailed⟩ := h
  have hrecent := hshort i p.asked
  have hnot : ¬ healthRecoveryInterval ≤ o.now p.asked - h.failedAt := by
    rw [hfailed]
    omega
  simp [Provider.isHealthy, hentry, hbad, hnot]

theorem demoted_markUnhealthy (o : Outside) (p : Provider) (url : String) :
    Demoted o (p.markUnhealthy o url).health url :=
  ⟨⟨false, o.now p.asked, _⟩, Function.update_self .., rfl, p.asked, rfl⟩

theorem markUnhealthy_other {o : Outside} {p : Provider} {url other : String}
    (h : other ≠ url) : (p.markUnhealthy o url).health other = p.health other :=
  Function.update_of_ne h ..

theorem markHealthy_other {p : Provider} {url other : String} (h : other ≠ url) :
    (p.markHealthy url).health other = p.health other :=
  Function.update_of_ne h ..

theorem demote_eq {o : Outside} {p : Provider} {url : String} (h : url ≠ "") :
    p.demote o url = p.markUnhealthy o url := if_neg h

/-- A dial picks an endpoint that it marks healthy. -/
theorem tryEndpoints_ok {o : Outside} {urls : List String} {lastErr : Option Err} {p : Provider}
    {url : String} {p' : Provider} (h : tryEndpoints o urls lastErr p = (.ok url, p')) :
    url ≠ "" ∧ p'.health url = some ⟨true, 0, 0⟩ := by
  induction urls generalizing lastErr p with
  | nil => cases h
  | cons u urls ih =>
    rw [tryEndpoints] at h
    split at h
    · exact ih h
    · rename_i hblank
      split at h
      · exact ih h
      · dsimp only at h
        split at h
        · exact ih h
        · split at h
          · exact ih h
          · cases h
            exact ⟨hblank, Function.update_self ..⟩

/-- It passes over an endpoint that is demoted and leaves its entry alone. -/
theorem tryEndpoints_demoted {o : Outside} (hshort : Short o) (urls : List String)
    (lastErr : Option Err) {p : Provider} {url : String} (hurl : Demoted o p.health url) :
    (tryEndpoints o urls lastErr p).2.health url = p.health url ∧
      (tryEndpoints o urls lastErr p).1 ≠ .ok url := by
  induction urls generalizing lastErr p with
  | nil => exact ⟨rfl, (fun h => by cases h)⟩
  | cons u urls ih =>
    rw [tryEndpoints]
    split
    · exact ih _ hurl
    · split
      · exact ih _ hurl
      · rename_i hhealthy
        have hother : url ≠ u := by
          rintro rfl
          exact hhealthy (by simp [isHealthy_of_demoted hshort hurl])
        have hmarked : ∀ q : Provider, q.health = p.health →
            (q.markUnhealthy o u).health url = p.health url := by
          intro q hq
          rw [markUnhealthy_other hother, hq]
        -- an entry that is marked belongs to another endpoint
        have hstill : ∀ q : Provider, q.health = p.health →
            Demoted o (q.markUnhealthy o u).health url := by
          intro q hq
          obtain ⟨h, hentry, hbad⟩ := hurl
          exact ⟨h, (hmarked q hq).trans hentry, hbad⟩
        dsimp only
        split
        · obtain ⟨hsame, hne⟩ := ih (some _) (hstill p.tick.tick rfl)
          exact ⟨hsame.trans (hmarked _ rfl), hne⟩
        · split
          · obtain ⟨hsame, hne⟩ := ih (some _) (hstill p.tick.tick.tick rfl)
            exact ⟨hsame.trans (hmarked _ rfl), hne⟩
          · constructor
            · exact markHealthy_other hother
            · intro heq
              cases heq
              exact hother rfl

/-- The request was refused by the endpoint. -/
def Request.isRefused (q : Request R) : Prop := ∃ err, q.outcome = .refused err

/-- So far every request was refused, by different endpoints that are demoted now. -/
structure AllRefused (o : Outside) (l : Lookup R) : Prop where
  refused : ∀ q ∈ l.requests, q.isRefused
  demoted : Short o → ∀ q ∈ l.requests, Demoted o l.provider.health q.url
  distinct : Short o → (l.requests.map Request.url).Nodup

/-- What an answer makes of the lookup, and a refusal does not. -/
def Answers (q : Request R) (result : Option R × Option Err) : Prop :=
  match q.outcome with
  | .receipt r => result = (some r, none)
  | .notFound err => result = (none, some err)
  | .refused _ => False

/-- How a lookup ends after the requests `qs`: an answered request is the last one,
its endpoint was healthy, and nothing is demoted after it. -/
structure Ending (o : Outside) (result : Option R × Option Err) (final : HealthMap)
    (qs : List (Request R)) : Prop where
  given : ∀ r, result.1 = some r → ∃ q ∈ qs, q.outcome = .receipt r
  answered : ∀ pre q post, qs = pre ++ q :: post → ¬ q.isRefused →
    post = [] ∧ final = q.health ∧ final q.url = some ⟨true, 0, 0⟩ ∧ Answers q result
  demoted : Short o → ∀ q ∈ qs, q.isRefused → Demoted o final q.url
  distinct : Short o → (qs.map Request.url).Nodup

theorem Demoted.of_eq {o : Outside} {health health' : HealthMap} {url : String}
    (h : Demoted o health url) (heq : health' url = health url) : Demoted o health' url := by
  obtain ⟨entry, hentry, hbad⟩ := h
  exact ⟨entry, heq.trans hentry, hbad⟩

theorem nodup_urls_concat {qs : List (Request R)} {q : Request R}
    (h : (qs.map Request.url).Nodup) (hnew : ∀ x ∈ qs, x.url ≠ q.url) :
    ((qs ++ [q]).map Request.url).Nodup := by
  rw [List.map_append, List.map_singleton]
  refine List.Nodup.append h (List.nodup_singleton _) ?_
  intro url hurl hlast
  obtain ⟨x, hx, rfl⟩ := List.mem_map.mp hurl
  exact hnew x hx (List.mem_singleton.mp hlast)

/-- A lookup that ends without an answer. -/
theorem AllRefused.ending {o : Outside} {l : Lookup R} (h : AllRefused o l) {final : HealthMap}
    (hfinal : Short o → ∀ q ∈ l.requests, final q.url = l.provider.health q.url)
    (err : Option Err) : Ending o ((none, err) : Option R × Option Err) final l.requests where
  given _ hr := by cases hr
  answered pre q post hqs hanswered := by
    have hq : q ∈ l.requests := by simp [hqs]
    exact absurd (h.refused q hq) hanswered
  demoted hshort q hq _ := (h.demoted hshort q hq).of_eq (hfinal hshort q hq)
  distinct := h.distinct

/-- One that ends with an answer of `q`, asked after refusals only. -/
theorem AllRefused.answered {o : Outside} {l : Lookup R} (h : AllRefused o l) {q : Request R}
    (hkept : Short o → ∀ x ∈ l.requests, q.health x.url = l.provider.health x.url)
    (hnew : Short o → ∀ x ∈ l.requests, x.url ≠ q.url)
    (hhealthy : q.health q.url = some ⟨true, 0, 0⟩) {result : Option R × Option Err}
    (hresult : Answers q result) : Ending o result q.health (l.requests ++ [q]) where
  given r hr := by
    refine ⟨q, List.mem_append_right _ List.mem_cons_self, ?_⟩
    cases hq : q.outcome with
    | receipt r' =>
      rw [Answers, hq] at hresult
      rw [hresult] at hr
      cases hr
      rfl
    | notFound err =>
      rw [Answers, hq] at hresult
      rw [hresult] at hr
      cases hr
    | refused err =>
      rw [Answers, hq] at hresult
      exact hresult.elim
  answered pre x post hqs hanswered := by
    rcases List.eq_nil_or_concat post with rfl | ⟨post, last, rfl⟩
    · obtain ⟨-, hlast⟩ := List.append_inj' hqs rfl
      cases hlast
      exact ⟨rfl, rfl, hhealthy, hresult⟩
    · -- an earlier request was refused
      have hx : x ∈ l.requests := by
        have hcons : pre ++ x :: post.concat last = (pre ++ x :: post) ++ [last] := by
          simp
        obtain ⟨hfront, -⟩ := List.append_inj' (hqs.trans hcons) rfl
        rw [hfront]
        simp
      exact absurd (h.refused x hx) hanswered
  demoted hshort x hx hrefused := by
    rcases List.mem_append.mp hx with hold | hlast
    · exact (h.demoted hshort x hold).of_eq (hkept hshort x hold)
    · obtain ⟨err, herr⟩ := hrefused
      rw [List.mem_singleton.mp hlast] at herr
      rw [Answers, herr] at hresult
      exact hresult.elim
  distinct hshort := nodup_urls_concat (h.distinct hshort) (hnew hshort)

/-- A refusal demotes its endpoint and the next attempt goes on. -/
theorem AllRefused.refuse {o : Outside} {l : Lookup R} (h : AllRefused o l) {q : Request R}
    {p : Provider} (hkept : Short o → ∀ x ∈ l.requests, p.health x.url = l.provider.health x.url)
    (hnew : Short o → ∀ x ∈ l.requests, x.url ≠ q.url) (hurl : q.url ≠ "")
    (hrefused : q.isRefused) : AllRefused o ⟨p.tick.demote o q.url, l.requests ++ [q]⟩ where
  refused x hx := by
    rcases List.mem_append.mp hx with hold | hlast
    · exact h.refused x hold
    · rw [List.mem_singleton.mp hlast]
      exact hrefused
  demoted hshort x hx := by
    rw [demote_eq hurl]
    rcases List.mem_append.mp hx with hold | hlast
    · refine (h.demoted hshort x hold).of_eq ?_
      rw [markUnhealthy_other (hnew hshort x hold)]
      exact hkept hshort x hold
    · rw [List.mem_singleton.mp hlast]
      exact demoted_markUnhealthy o p.tick q.url
  distinct hshort := nodup_urls_concat (h.distinct hshort) (hnew hshort)

/-- The loop makes at most as many requests as it has attempts left. -/
theorem attempts_ending (nodes : Nodes R) (chain : ChainRPC) (isTest : Bool) (left : ℕ)
    (lastErr : Option Err) {l : Lookup R} (h : AllRefused nodes.toOutside l) :
    let run := attempts nodes chain isTest left lastErr l
    Ending nodes.toOutside run.1 run.2.provider.health run.2.requests ∧
      run.2.requests.length ≤ l.requests.length + left := by
  induction left generalizing lastErr l with
  | zero => exact ⟨h.ending (fun _ _ _ => rfl) lastErr, le_rfl⟩
  | succ left ih =>
    have hdemoted := fun hshort q (hq : q ∈ l.requests) =>
      tryEndpoints_demoted hshort (chain.endpoints isTest) none (h.demoted hshort q hq)
    rw [attempts]
    cases hdial : dialWithFailover nodes.toOutside chain isTest l.provider with
    | mk picked p =>
      rw [dialWithFailover] at hdial
      rw [hdial] at hdemoted
      have hkept : Short nodes.toOutside → ∀ x ∈ l.requests,
          p.health x.url = l.provider.health x.url := fun hshort x hx => (hdemoted hshort x hx).1
      cases picked with
      | error err => exact ⟨h.ending hkept _, by dsimp only; omega⟩
      | ok url =>
        obtain ⟨hurl, hhealthy⟩ := tryEndpoints_ok hdial
        have hnew : Short nodes.toOutside → ∀ x ∈ l.requests, x.url ≠ url := by
          intro hshort x hx heq
          exact (hdemoted hshort x hx).2 (by rw [heq])
        dsimp only
        cases houtcome : nodes.outcome p.asked url with
        | receipt r =>
          refine ⟨h.answered (q := ⟨url, .receipt r, p.health⟩) hkept hnew hhealthy rfl, ?_⟩
          simp
        | notFound err =>
          refine ⟨h.answered (q := ⟨url, .notFound err, p.health⟩) hkept hnew hhealthy rfl, ?_⟩
          simp
        | refused err =>
          have hnext := h.refuse (q := ⟨url, .refused err, p.health⟩) hkept hnew hurl ⟨err, rfl⟩
          obtain ⟨hending, hlength⟩ := ih (some err) hnext
          refine ⟨hending, hlength.trans ?_⟩
          simp only [List.length_append, List.length_singleton]
          omega

theorem getEVMReceipt_ending (nodes : Nodes R) (chain : ChainRPC) (isTest : Bool)
    (health : HealthMap) :
    let run := getEVMReceipt nodes chain isTest health
    Ending nodes.toOutside run.1 run.2.provider.health run.2.requests ∧
      run.2.requests.length ≤ evmReceiptAttempts := by
  have hstart : AllRefused nodes.toOutside (⟨⟨health, 0⟩, []⟩ : Lookup R) :=
    ⟨fun _ h => (by cases h), fun _ _ h => (by cases h), fun _ => List.nodup_nil⟩
  have hrun := attempts_ending nodes chain isTest evmReceiptAttempts none hstart
  rwa [List.length_nil, Nat.zero_add] at hrun

/-- What the caller of a lookup and the owner of the health map may rely on. -/
structure Contract (o : Outside) (result : Option R × Option Err) (final : Lookup R) : Prop where
  atMostThree : final.requests.length ≤ 3
  firstReceipt : ∀ pre q post r, final.requests = pre ++ q :: post → q.outcome = .receipt r →
    post = [] ∧ result = (some r, none)
  nothingElse : ∀ r, result.1 = some r → ∃ q ∈ final.requests, q.outcome = .receipt r
  notFound : ∀ pre q post err, final.requests = pre ++ q :: post → q.outcome = .notFound err →
    post = [] ∧ result = (none, some err) ∧ final.provider.health = q.health
  refused : Short o → ∀ q ∈ final.requests, q.isRefused →
    (∃ h, final.provider.health q.url = some h ∧ h.healthy = false) ∧
      ∀ i, Provider.isHealthy o ⟨final.provider.health, i⟩ q.url = false
  askedOnce : Short o → (final.requests.map Request.url).Nodup
  notDemoted : ∀ q ∈ final.requests, ¬ q.isRefused →
    final.provider.health q.url = some ⟨true, 0, 0⟩

/-- For every list of endpoints, every health map and whatever clock and endpoints answer. -/
theorem receipt_failover_contract (nodes : Nodes R) (chain : ChainRPC) (isTest : Bool)
    (health : HealthMap) :
    Contract nodes.toOutside (getEVMReceipt nodes chain isTest health).1
      (getEVMReceipt nodes chain isTest health).2 := by
  obtain ⟨h, hlength⟩ := getEVMReceipt_ending nodes chain isTest health
  refine ⟨hlength, ?_, h.given, ?_, ?_, h.distinct, ?_⟩
  · intro pre q post r hqs hq
    obtain ⟨hpost, -, -, hresult⟩ := h.answered pre q post hqs (by simp [Request.isRefused, hq])
    rw [Answers, hq] at hresult
    exact ⟨hpost, hresult⟩
  · intro pre q post err hqs hq
    obtain ⟨hpost, hfinal, -, hresult⟩ :=
      h.answered pre q post hqs (by simp [Request.isRefused, hq])
    rw [Answers, hq] at hresult
    exact ⟨hpost, hresult, hfinal⟩
  · intro hshort q hq hrefused
    have hdemoted := h.demoted hshort q hq hrefused
    constructor
    · obtain ⟨entry, hentry, hbad, -⟩ := hdemoted
      exact ⟨entry, hentry, hbad⟩
    · intro i
      exact isHealthy_of_demoted (p := ⟨_, i⟩) hshort hdemoted
  · intro q hq hanswered
    obtain ⟨pre, post, hqs⟩ := List.append_of_mem hq
    exact (h.answered pre q post hqs hanswered).2.2.1

/-- The first endpoint refuses and the second one gives the receipt. -/
def refusingFirst : Nodes ℕ where
  now n := n
  dial _ _ := .ok ()
  blockNumber _ _ := .ok ()
  outcome _ url := if url = "a" then .refused (Err.new "archive requests need a token")
    else .receipt 7

example : let run := getEVMReceipt refusingFirst ⟨"a", "", "a", ["b"]⟩ false fun _ => none
    run.1 = (some 7, none) ∧ run.2.requests.map Request.url = ["a", "b"] := by
  decide

end Receipts

end CryptoLink
