import Mathlib.Data.List.Dedup
import VideoStorage.Foundation.Loop
import VideoStorage.Foundation.Scan

/-!
# Listings in pages

A store lists keys in order, a page at a time, and hands out a token to go on
with while there is more. Meanwhile others add keys and delete some, so each page
is taken from what is there when it is asked for. A client that follows the
tokens ends with keys in order, among them every key that was there throughout
(`Listed`).
-/

namespace VideoStorage.Foundation

variable {κ τ ε : Type} [LinearOrder κ]

/-- A store of keys: what it finds at the `n`-th request, how much of it it is
willing to return, and its tokens, which stand for a position. -/
structure Lister (κ τ : Type) where
  keys : ℕ → List κ
  size : ℕ → ℕ
  size_pos : ∀ n, 0 < size n
  token : κ → τ
  position : τ → κ
  position_token : ∀ k, position (token k) = k

namespace Lister

variable (l : Lister κ τ)

/-- The keys that a request is about. -/
def found (n : ℕ) (matching : κ → Bool) (cursor : Option κ) : List κ :=
  (l.keys n).dedup.filter fun k => matching k && past cursor k

def items (n : ℕ) (matching : κ → Bool) (cursor : Option κ) : List κ :=
  orderLimit id (some (l.size n)) (l.found n matching cursor)

/-- A token for the next request while there is more. -/
def next (n : ℕ) (matching : κ → Bool) (cursor : Option κ) : Option τ :=
  if l.size n < (l.found n matching cursor).length then
    (l.items n matching cursor).getLast?.map l.token
  else none

/-- Where a request begins: its token counts before its `start_after`. -/
def cursor (token : Option τ) (startAfter : Option κ) : Option κ :=
  (token.map l.position).or startAfter

def page (n : ℕ) (matching : κ → Bool) (token : Option τ)
    (startAfter : Option κ) : List κ × Option τ :=
  (l.items n matching (l.cursor token startAfter),
    l.next n matching (l.cursor token startAfter))

end Lister

variable {l : Lister κ τ} {n : ℕ} {matching : κ → Bool} {cursor : Option κ}
  {token : Option τ} {startAfter : Option κ} {k last : κ}

theorem Lister.mem_found : k ∈ l.found n matching cursor ↔
    k ∈ l.keys n ∧ matching k = true ∧ past cursor k = true := by
  unfold Lister.found
  rw [List.mem_filter, List.mem_dedup, Bool.and_eq_true]

theorem Lister.found_nodup (l : Lister κ τ) (n : ℕ) (matching : κ → Bool)
    (cursor : Option κ) : ((l.found n matching cursor).map id).Nodup := by
  rw [List.map_id]
  exact (List.nodup_dedup _).filter _

/-- What is known of a page: it holds keys of the request in order, and leaves out
only such as are past its token. -/
structure IsListed (l : Lister κ τ) (n : ℕ) (matching : κ → Bool)
    (cursor : Option κ) (page : List κ × Option τ) : Prop where
  sorted : page.1.Pairwise (· < ·)
  found : ∀ k ∈ page.1, k ∈ l.found n matching cursor
  ends : page.2 = none → ∀ k ∈ l.found n matching cursor, k ∈ page.1
  goesOn : ∀ t, page.2 = some t → ∃ last ∈ page.1, t = l.token last ∧
    (∀ k ∈ page.1, k ≤ last) ∧
    ∀ k ∈ l.found n matching cursor, k ∈ page.1 ∨ last < k

theorem isListed_page (l : Lister κ τ) (n : ℕ) (matching : κ → Bool)
    (cursor : Option κ) : IsListed l n matching cursor
      (l.items n matching cursor, l.next n matching cursor) := by
  have hnodup := l.found_nodup n matching cursor
  have hon : ∀ k ∈ l.items n matching cursor, k ∈ l.found n matching cursor :=
    fun k hk => mem_of_mem_orderLimit hk
  refine ⟨?_, hon, ?_, ?_⟩
  · have hne : ((l.items n matching cursor).map id).Nodup := orderLimit_nodup hnodup
    have hsorted : (l.items n matching cursor).Pairwise fun a b => id a ≤ id b :=
      orderLimit_sorted
    refine (hsorted.and (List.pairwise_map.mp hne)).imp ?_
    rintro a b ⟨hle, hne⟩
    exact lt_of_le_of_ne hle hne
  · intro hnone k hk
    have hpos := l.size_pos n
    have hshort : (l.found n matching cursor).length ≤ l.size n := by
      by_contra hlt
      unfold Lister.next at hnone
      dsimp only at hnone
      rw [if_pos (by omega)] at hnone
      have hempty : l.items n matching cursor = [] :=
        List.getLast?_eq_none_iff.mp (Option.map_eq_none_iff.mp hnone)
      have hnil := orderLimit_eq_nil (fun h => hpos.ne' (Option.some.inj h)) hempty
      rw [hnil] at hk
      cases hk
    have hperm : (l.items n matching cursor).Perm (l.found n matching cursor) := by
      refine orderLimit_perm fun m hm => ?_
      rwa [← Option.mem_some_iff.mp hm]
    exact hperm.mem_iff.mpr hk
  · intro t ht
    unfold Lister.next at ht
    dsimp only at ht
    split_ifs at ht with hlt
    obtain ⟨last, hlast, rfl⟩ := Option.map_eq_some_iff.mp ht
    exact ⟨last, List.mem_of_getLast? hlast, rfl, fun k hk => le_last hlast hk,
      fun k hk => mem_page_or_past hnodup hlast hk⟩

/-! ## Following the tokens -/

/-- Where a client is: what it has, the token to go on with, whether it still has
to ask for the first page, and how often it asked. -/
structure ListState (κ τ : Type) where
  items : List κ := []
  token : Option τ := none
  first : Bool := true
  requests : ℕ := 0

/-- One page more. The first request alone says where to start. `fails` are the
requests that come back with an error. -/
def listStep (l : Lister κ τ) (fails : ℕ → Option ε) (matching : κ → Bool)
    (startAfter : Option κ) (s : ListState κ τ) :
    ListState κ τ ⊕ Except ε (List κ) :=
  match fails s.requests with
  | some e => .inr (.error e)
  | none =>
      let page := l.page s.requests matching s.token
        (if s.first then startAfter else none)
      match page.2 with
      | none => .inr (.ok (s.items ++ page.1))
      | some token => .inl {
          items := s.items ++ page.1
          token := some token
          first := false
          requests := s.requests + 1 }

def listAll (l : Lister κ τ) (fails : ℕ → Option ε) (matching : κ → Bool)
    (startAfter : Option κ) (fuel : ℕ) : Option (Except ε (List κ)) :=
  iterate (listStep l fails matching startAfter) fuel {}

/-- What a client that got to the end has: keys in order that match and are past
the start, each there at some request, and all that were there at every one. -/
structure Listed (l : Lister κ τ) (matching : κ → Bool) (startAfter : Option κ)
    (items : List κ) : Prop where
  sorted : items.Pairwise (· < ·)
  chosen : ∀ k ∈ items, matching k = true ∧ past startAfter k = true
  seen : ∀ k ∈ items, ∃ n, k ∈ l.keys n
  complete : ∀ k, matching k = true → past startAfter k = true →
    (∀ n, k ∈ l.keys n) → k ∈ items

/-- Between two requests: as `Listed`, up to the position of the token. -/
structure Listing (l : Lister κ τ) (matching : κ → Bool) (startAfter : Option κ)
    (s : ListState κ τ) : Prop where
  shape : s.first = s.token.isNone
  sorted : s.items.Pairwise (· < ·)
  chosen : ∀ k ∈ s.items, matching k = true ∧ past startAfter k = true
  seen : ∀ k ∈ s.items, ∃ n, k ∈ l.keys n
  behind : ∀ k ∈ s.items, past (l.cursor s.token startAfter) k = false
  started : ∀ k, past (l.cursor s.token startAfter) k = true →
    past startAfter k = true
  complete : ∀ k, matching k = true → past startAfter k = true →
    past (l.cursor s.token startAfter) k = false → (∀ n, k ∈ l.keys n) →
    k ∈ s.items

section Loop

variable {fails : ℕ → Option ε} {s s' : ListState κ τ} {fuel : ℕ} {items : List κ}

theorem listing_init (l : Lister κ τ) (matching : κ → Bool)
    (startAfter : Option κ) : Listing l matching startAfter {} where
  shape := rfl
  sorted := .nil
  chosen k hk := by cases hk
  seen k hk := by cases hk
  behind k hk := by cases hk
  started k hk := hk
  complete k _ hpast hnot := by
    rw [show l.cursor (none : Option τ) startAfter = startAfter from rfl] at hnot
    rw [hpast] at hnot
    cases hnot

/-- The page that a client gets is the one after what it has. -/
theorem Listing.page (h : Listing l matching startAfter s) :
    IsListed l s.requests matching (l.cursor s.token startAfter)
      (l.page s.requests matching s.token (if s.first then startAfter else none)) := by
  have hcursor : l.cursor s.token (if s.first then startAfter else none)
      = l.cursor s.token startAfter := by
    rw [h.shape]
    cases s.token with
    | none => rfl
    | some t => rfl
  unfold Lister.page
  rw [hcursor]
  exact isListed_page l s.requests matching _

theorem past_eq_false_of_lt {a b : κ} (ha : past cursor a = false)
    (hb : past cursor b = true) : a < b := by
  cases cursor with
  | none => cases ha
  | some c =>
      rw [past_some, decide_eq_false_iff_not, not_lt] at ha
      rw [past_some, decide_eq_true_eq] at hb
      exact ha.trans_lt hb

/-- What the client has after a page of its own. -/
theorem Listing.append (h : Listing l matching startAfter s) {items : List κ}
    (hsorted : items.Pairwise (· < ·))
    (hfound : ∀ k ∈ items,
      k ∈ l.found s.requests matching (l.cursor s.token startAfter)) :
    (s.items ++ items).Pairwise (· < ·) ∧
      (∀ k ∈ s.items ++ items, matching k = true ∧ past startAfter k = true) ∧
      ∀ k ∈ s.items ++ items, ∃ n, k ∈ l.keys n := by
  refine ⟨List.pairwise_append.mpr ⟨h.sorted, hsorted, ?_⟩, ?_, ?_⟩
  · intro a ha b hb
    exact past_eq_false_of_lt (h.behind a ha) (Lister.mem_found.mp (hfound b hb)).2.2
  · intro k hk
    rcases List.mem_append.mp hk with hk | hk
    · exact h.chosen k hk
    · obtain ⟨-, hmatch, hpast⟩ := Lister.mem_found.mp (hfound k hk)
      exact ⟨hmatch, h.started k hpast⟩
  · intro k hk
    rcases List.mem_append.mp hk with hk | hk
    · exact h.seen k hk
    · exact ⟨_, (Lister.mem_found.mp (hfound k hk)).1⟩

theorem Listing.step (h : Listing l matching startAfter s)
    (hstep : listStep l fails matching startAfter s = .inl s') :
    Listing l matching startAfter s' ∧ ∃ last, s'.token = some (l.token last) ∧
      last ∈ l.keys s.requests ∧ past (l.cursor s.token startAfter) last = true := by
  have hpage := h.page
  unfold listStep at hstep
  cases hfail : fails s.requests with
  | some e =>
      rw [hfail] at hstep
      cases hstep
  | none =>
      rw [hfail] at hstep
      dsimp only at hstep
      generalize l.page s.requests matching s.token
        (if s.first then startAfter else none) = page at hstep hpage
      obtain ⟨items, next⟩ := page
      cases next with
      | none => cases hstep
      | some t =>
          cases hstep
          obtain ⟨last, hlast, rfl, hle, hgap⟩ := hpage.goesOn t rfl
          obtain ⟨hkeys, -, hpast⟩ := Lister.mem_found.mp (hpage.found last hlast)
          obtain ⟨hsorted, hmatch, hseen⟩ := h.append hpage.sorted hpage.found
          have hcursor : l.cursor (some (l.token last)) startAfter = some last :=
            congrArg some (l.position_token last)
          refine ⟨⟨rfl, hsorted, hmatch, hseen, ?_, ?_, ?_⟩, last, rfl, hkeys, hpast⟩
          · intro k hk
            rw [hcursor, past_some, decide_eq_false_iff_not, not_lt]
            rcases List.mem_append.mp hk with hk | hk
            · exact (past_eq_false_of_lt (h.behind k hk) hpast).le
            · exact hle k hk
          · intro k hk
            rw [hcursor] at hk
            exact h.started k (past_trans hpast hk)
          · intro k hk hstart hnot hall
            rw [hcursor, past_some, decide_eq_false_iff_not] at hnot
            cases hp : past (l.cursor s.token startAfter) k with
            | false => exact List.mem_append_left _ (h.complete k hk hstart hp hall)
            | true =>
                have hmem := Lister.mem_found.mpr ⟨hall s.requests, hk, hp⟩
                exact List.mem_append_right _
                  ((hgap k hmem).resolve_right hnot)

theorem Listing.stop (h : Listing l matching startAfter s)
    (hstep : listStep l fails matching startAfter s = .inr (.ok items)) :
    Listed l matching startAfter items := by
  have hpage := h.page
  unfold listStep at hstep
  cases hfail : fails s.requests with
  | some e =>
      rw [hfail] at hstep
      cases hstep
  | none =>
      rw [hfail] at hstep
      dsimp only at hstep
      generalize l.page s.requests matching s.token
        (if s.first then startAfter else none) = page at hstep hpage
      obtain ⟨items', next⟩ := page
      cases next with
      | some t => cases hstep
      | none =>
          cases hstep
          obtain ⟨hsorted, hmatch, hseen⟩ := h.append hpage.sorted hpage.found
          refine ⟨hsorted, hmatch, hseen, fun k hk hstart hall => ?_⟩
          cases hp : past (l.cursor s.token startAfter) k with
          | false => exact List.mem_append_left _ (h.complete k hk hstart hp hall)
          | true =>
              have hmem := Lister.mem_found.mpr ⟨hall s.requests, hk, hp⟩
              exact List.mem_append_right _ (hpage.ends rfl k hmem)

/-- **A listing is complete**, whatever was added and deleted meanwhile. -/
theorem listAll_listed
    (h : listAll l fails matching startAfter fuel = some (.ok items)) :
    Listed l matching startAfter items := by
  have hpost := iterate_post (Listing l matching startAfter)
    (fun r => ∀ items, r = .ok items → Listed l matching startAfter items)
    (fun s s' hs hstep => (hs.step hstep).1) ?_ (listing_init l matching startAfter) h
  · exact hpost items rfl
  · rintro s r hs hstep items rfl
    exact hs.stop hstep

/-- **A listing ends** if all keys that ever come up are among finitely many. -/
theorem listAll_total (fails : ℕ → Option ε) (matching : κ → Bool)
    (startAfter : Option κ) {all : List κ}
    (hall : ∀ n, ∀ k ∈ l.keys n, k ∈ all) :
    ∃ fuel r, listAll l fails matching startAfter fuel = some r := by
  have hnext : ∀ s s', Listing l matching startAfter s →
      listStep l fails matching startAfter s = .inl s' →
      Listing l matching startAfter s' ∧
        ahead id all (l.cursor s'.token startAfter)
          < ahead id all (l.cursor s.token startAfter) := by
    intro s s' hs hstep
    obtain ⟨hs', last, htoken, hlast, hpast⟩ := hs.step hstep
    have hcursor : l.cursor s'.token startAfter = some last := by
      rw [htoken]
      exact congrArg some (l.position_token last)
    rw [hcursor]
    exact ⟨hs', ahead_lt (hall _ last hlast) hpast⟩
  obtain ⟨r, hr⟩ := iterate_total (listStep l fails matching startAfter)
    (Listing l matching startAfter)
    (fun s => ahead id all (l.cursor s.token startAfter)) hnext
    (listing_init l matching startAfter)
  exact ⟨_, r, hr⟩

end Loop

end VideoStorage.Foundation
