import CryptoLink.Library.ReadCommitted

/-!
# Listings page by page

A listing is shown a page at a time. Where entries are left, the cursor that
comes back names the first of them, and the next page starts at it. Asking until
no cursor comes back shows every entry once.
-/

namespace Paging

variable {α : Type}

/-- The pages of a listing; what is left at the end is a page, if only an empty
one. -/
def pages (limit : ℕ) : ℕ → List α → List (List α)
  | 0, _ => []
  | fuel + 1, xs =>
      if xs.length ≤ limit then [xs] else xs.take limit :: pages limit fuel (xs.drop limit)

theorem flatten_pages {limit : ℕ} (hlimit : 0 < limit) (fuel : ℕ) (xs : List α)
    (h : xs.length < fuel) : (pages limit fuel xs).flatten = xs := by
  induction fuel generalizing xs with
  | zero => omega
  | succ fuel ih =>
    by_cases hlast : xs.length ≤ limit
    · simp [pages, hlast]
    · have hless : (xs.drop limit).length < fuel := by
        rw [List.length_drop]
        omega
      rw [pages, if_neg hlast, List.flatten_cons, ih _ hless]
      exact List.take_append_drop limit xs

theorem length_page_le (limit fuel : ℕ) (xs : List α) :
    ∀ page ∈ pages limit fuel xs, page.length ≤ limit := by
  induction fuel generalizing xs with
  | zero =>
    intro page hpage
    cases hpage
  | succ fuel ih =>
    intro page hpage
    rw [pages] at hpage
    by_cases hlast : xs.length ≤ limit
    · rw [if_pos hlast, List.mem_singleton] at hpage
      rw [hpage]
      exact hlast
    · rw [if_neg hlast] at hpage
      rcases List.mem_cons.mp hpage with rfl | hrest
      · rw [List.length_take]
        omega
      · exact ih _ page hrest

/-- A condition that holds from an entry on selects what starts with it. -/
theorem filter_from {before after : List α} {x : α} {q : α → Bool}
    (hbefore : ∀ y ∈ before, q y = false) (hself : q x = true)
    (hafter : ∀ y ∈ after, q y = true) :
    (before ++ x :: after).filter q = x :: after := by
  have hnone : before.filter q = [] :=
    List.filter_eq_nil_iff.mpr fun y hy => by simp [hbefore y hy]
  have hall : after.filter q = after := List.filter_eq_self.mpr hafter
  rw [List.filter_append, hnone, List.filter_cons_of_pos hself, hall, List.nil_append]

/-- The name of the first entry that is left. -/
def cursorAfter (name : α → String) (limit : ℕ) (xs : List α) : String :=
  match xs.drop limit with
  | [] => ""
  | x :: _ => name x

theorem cursorAfter_last {name : α → String} {limit : ℕ} {xs : List α} (h : xs.length ≤ limit) :
    cursorAfter name limit xs = "" := by
  rw [cursorAfter, List.drop_of_length_le h]

theorem cursorAfter_of_drop {name : α → String} {limit : ℕ} {xs after : List α} {x : α}
    (h : xs.drop limit = x :: after) : cursorAfter name limit xs = name x := by
  rw [cursorAfter, h]

section Programs

open ReadCommitted StatementPrograms

variable {S : Type} {R : S → Type} {E W K ε : Type}

/-- Ask for pages until no cursor comes back. -/
def everyPage (list : String → Prog (Cmd S) (Answer R) ε (List α × String)) (stuck : ε) :
    ℕ → String → Prog (Cmd S) (Answer R) ε (List (List α))
  | 0, _ => .fail stuck
  | fuel + 1, cursor =>
      (list cursor).bind fun shown =>
        if shown.2 = "" then .ret [shown.1]
        else (everyPage list stuck fuel shown.2).bind fun rest => .ret (shown.1 :: rest)

variable {G : Engine S R E W K} {envs : ℕ → E} {v : View S E W K} {name : α → String} {limit : ℕ}
  {list : String → Prog (Cmd S) (Answer R) ε (List α × String)} {stuck : ε}

/-- Alone, the cursor leads to a page of these entries and to the cursor after
them. -/
def Shows (G : Engine S R E W K) (envs : ℕ → E) (v : View S E W K) (name : α → String) (limit : ℕ)
    (list : String → Prog (Cmd S) (Answer R) ε (List α × String)) (cursor : String)
    (xs : List α) : Prop :=
  ∀ n, ∃ n', G.alone envs (list cursor) n v =
    (.ok (xs.take limit, cursorAfter name limit xs), n', v)

/-- If every entry's name leads to the entries from it on, asking page by page
gives the pages of the listing. -/
theorem alone_everyPage (hlimit : 0 < limit) (fuel : ℕ) {cursor : String} {xs : List α}
    (hfuel : xs.length < fuel) (hnames : ∀ x ∈ xs, name x ≠ "")
    (hfirst : Shows G envs v name limit list cursor xs)
    (hnext : ∀ before x after, xs = before ++ x :: after →
      Shows G envs v name limit list (name x) (x :: after)) (n : ℕ) :
    ∃ n', G.alone envs (everyPage list stuck fuel cursor) n v =
      (.ok (pages limit fuel xs), n', v) := by
  induction fuel generalizing cursor xs n with
  | zero => omega
  | succ fuel ih =>
    obtain ⟨n₁, hpage⟩ := hfirst n
    by_cases hlast : xs.length ≤ limit
    · refine ⟨n₁, ?_⟩
      rw [everyPage, Engine.alone_bind, hpage, cursorAfter_last hlast]
      simp only [if_true, Engine.alone_ret, pages, hlast, List.take_of_length_le hlast]
    · cases hdrop : xs.drop limit with
      | nil =>
        have := List.drop_eq_nil_iff.mp hdrop
        omega
      | cons x after =>
        have hsplit : xs = xs.take limit ++ x :: after := by
          rw [← hdrop]
          exact (List.take_append_drop limit xs).symm
        have hname : name x ≠ "" := hnames x (hsplit ▸ List.mem_append_right _ List.mem_cons_self)
        have hless : (x :: after).length < fuel := by
          rw [← hdrop, List.length_drop]
          omega
        obtain ⟨n₂, hrest⟩ := ih hless
          (fun y hy => hnames y (hsplit ▸ List.mem_append_right _ hy))
          (hnext _ x after hsplit)
          (fun before y after' hafter => hnext (xs.take limit ++ before) y after' (by
            rw [List.append_assoc, ← hafter]
            exact hsplit)) n₁
        refine ⟨n₂, ?_⟩
        rw [everyPage, Engine.alone_bind, hpage, cursorAfter_of_drop hdrop]
        simp only [if_neg hname, Engine.alone_bind, hrest, Engine.alone_ret, pages, if_neg hlast,
          hdrop]

end Programs

end Paging
