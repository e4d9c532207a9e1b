import VideoStorage.Foundation.Int64
import VideoStorage.MediaIndex.MissingHash

/-!
# The shard arguments of the mirror client

`--shard` and `--of` each take the argument behind their first occurrence. One
whose value is no number counts as absent, so a run is refused for it only if the
other flag was read (`resolveShard_iff`).
-/

namespace VideoStorage.Mirror

open Foundation VideoStorage.MediaIndex

/-! ## The argument of a flag -/

section Flag

variable {α : Type} {flag value : α} {args : List α}

/-- `args.windows(2).find(|w| w[0] == flag)`, and the second of the two. -/
def flagValue [DecidableEq α] (flag : α) (args : List α) : Option α :=
  ((args.zip args.tail).find? (·.1 = flag)).map (·.2)

/-- The first occurrence of the flag is followed by the value. -/
def Given (flag value : α) (args : List α) : Prop :=
  ∃ pre post, args = pre ++ flag :: value :: post ∧ flag ∉ pre

theorem Given.mem (h : Given flag value args) : flag ∈ args := by
  obtain ⟨pre, post, rfl, -⟩ := h
  simp

theorem given_cons_self {rest : List α} :
    Given flag value (flag :: rest) ↔ ∃ post, rest = value :: post := by
  constructor
  · rintro ⟨pre, post, heq, hpre⟩
    cases pre with
    | nil => exact ⟨post, (List.cons.inj heq).2⟩
    | cons a pre =>
        obtain rfl := (List.cons.inj heq).1
        exact absurd List.mem_cons_self hpre
  · rintro ⟨post, rfl⟩
    exact ⟨[], post, rfl, List.not_mem_nil⟩

theorem given_cons_of_ne {a : α} {rest : List α} (h : a ≠ flag) :
    Given flag value (a :: rest) ↔ Given flag value rest := by
  constructor
  · rintro ⟨pre, post, heq, hpre⟩
    cases pre with
    | nil => exact absurd (List.cons.inj heq).1 h
    | cons b pre =>
        exact ⟨pre, post, (List.cons.inj heq).2, fun hmem =>
          hpre (List.mem_cons_of_mem b hmem)⟩
  · rintro ⟨pre, post, rfl, hpre⟩
    exact ⟨a :: pre, post, rfl, List.not_mem_cons_of_ne_of_not_mem h.symm hpre⟩

theorem flagValue_eq_some [DecidableEq α] :
    flagValue flag args = some value ↔ Given flag value args := by
  induction args with
  | nil =>
      refine iff_of_false nofun ?_
      rintro ⟨pre, post, heq, -⟩
      simp at heq
  | cons a rest ih =>
      by_cases ha : a = flag
      · subst ha
        rw [given_cons_self]
        cases rest <;> simp [flagValue]
      · rw [given_cons_of_ne ha, ← ih]
        cases rest <;> simp [flagValue, ha]

end Flag

/-! ## The shard -/

/-- The number behind a flag. -/
def parseFlag (flag : String) (args : List String) : Option Int64 :=
  (flagValue flag args).bind parseI64

def parseShardArg (args : List String) : Option Int64 := parseFlag "--shard" args

def parseOf (args : List String) : Option Int64 := parseFlag "--of" args

/-- The count and the index, as the client sends them. -/
def resolveShard (args : List String) : Except String (Option (Int64 × Int64)) :=
  match parseShardArg args, parseOf args with
  | none, none => .ok none
  | some idx, some of =>
      if of ≥ 1 ∧ 0 ≤ idx ∧ idx < of then .ok (some (of, idx))
      else .error "--shard must satisfy 0 <= shard < of, and of >= 1"
  | _, _ => .error "--shard and --of must be provided together"

/-- The flag is given a number. -/
def Reads (flag : String) (n : Int64) (args : List String) : Prop :=
  ∃ value, Given flag value args ∧ parseI64 value = some n

variable {args : List String} {of idx n : Int64}

theorem parseFlag_eq_some {flag : String} :
    parseFlag flag args = some n ↔ Reads flag n args := by
  unfold parseFlag
  rw [Option.bind_eq_some_iff]
  exact exists_congr fun value => and_congr_left' flagValue_eq_some

theorem Reads.mem {flag : String} (h : Reads flag n args) : flag ∈ args := by
  obtain ⟨value, hgiven, -⟩ := h
  exact hgiven.mem

/-! ## What is asked for -/

/-- Neither flag is there. -/
def NoShard (args : List String) : Prop := "--shard" ∉ args ∧ "--of" ∉ args

/-- Both flags are given numbers, and the server accepts the pair. -/
structure AsksFor (of idx : Int64) (args : List String) : Prop where
  shard : Reads "--shard" idx args
  count : Reads "--of" of args
  accepted : ∃ s, parseShard (some idx.toInt) (some of.toInt) = .ok (some s)

/-- No flag is dropped: a run is over the whole set or over a shard where that was
asked for, and refused otherwise. -/
structure Resolves (args : List String) : Prop where
  whole : resolveShard args = .ok none ↔ NoShard args
  pair : ∀ of idx, resolveShard args = .ok (some (of, idx)) ↔ AsksFor of idx args
  refused : (∃ e, resolveShard args = .error e) ↔
    ¬ NoShard args ∧ ∀ of idx, ¬ AsksFor of idx args

/-- The client checks what the server does. -/
theorem accepted_iff :
    (∃ s, parseShard (some idx.toInt) (some of.toInt) = .ok (some s)) ↔
      of ≥ 1 ∧ 0 ≤ idx ∧ idx < of := by
  have hone : of ≥ 1 ↔ 1 ≤ of.toInt := Int64.le_iff_toInt_le
  have hzero : 0 ≤ idx ↔ 0 ≤ idx.toInt := Int64.le_iff_toInt_le
  rw [hone, hzero, toInt_lt]
  unfold parseShard
  dsimp only
  split_ifs with h
  · exact iff_of_true ⟨_, rfl⟩ h
  · exact iff_of_false nofun h

/-- A shard comes out right, whatever the arguments are. -/
theorem resolveShard_eq_pair :
    resolveShard args = .ok (some (of, idx)) ↔ AsksFor of idx args := by
  constructor
  · intro h
    unfold resolveShard at h
    split at h
    · cases h
    · rename_i hshard hof
      split_ifs at h with hvalid
      cases h
      exact ⟨parseFlag_eq_some.mp hshard, parseFlag_eq_some.mp hof,
        accepted_iff.mpr hvalid⟩
    · cases h
  · intro h
    unfold resolveShard parseShardArg parseOf
    rw [parseFlag_eq_some.mpr h.shard, parseFlag_eq_some.mpr h.count]
    exact if_pos (accepted_iff.mp h.accepted)

/-- A run is over the whole set when neither flag was read. -/
theorem resolveShard_eq_none : resolveShard args = .ok none ↔
    (∀ n, ¬ Reads "--shard" n args) ∧ ∀ n, ¬ Reads "--of" n args := by
  simp only [← parseFlag_eq_some]
  unfold resolveShard parseShardArg parseOf
  cases parseFlag "--shard" args with
  | none => cases parseFlag "--of" args <;> simp
  | some idx =>
      cases parseFlag "--of" args with
      | none => simp
      | some of =>
          dsimp only
          split_ifs <;> simp

theorem NoShard.notRead (h : NoShard args) :
    (∀ n, ¬ Reads "--shard" n args) ∧ ∀ n, ¬ Reads "--of" n args :=
  ⟨fun _ hread => h.1 hread.mem, fun _ hread => h.2 hread.mem⟩

/-- The three outcomes are the right ones as soon as the first is. -/
theorem resolves_of_whole (h : resolveShard args = .ok none ↔ NoShard args) :
    Resolves args := by
  refine ⟨h, fun _ _ => resolveShard_eq_pair, ?_⟩
  rw [← h]
  simp only [← resolveShard_eq_pair]
  cases hres : resolveShard args with
  | error e => simp
  | ok shard =>
      cases shard with
      | none => simp
      | some pair =>
          obtain ⟨of, idx⟩ := pair
          simp

/-- **No flag is dropped exactly where one of those given is read.** -/
theorem resolveShard_iff (args : List String) :
    Resolves args ↔
      NoShard args ∨ (∃ n, Reads "--shard" n args) ∨ ∃ n, Reads "--of" n args := by
  constructor
  · intro h
    by_contra hnot
    push Not at hnot
    obtain ⟨hsome, hshard, hof⟩ := hnot
    exact hsome (h.whole.mp (resolveShard_eq_none.mpr ⟨hshard, hof⟩))
  · intro h
    refine resolves_of_whole ⟨fun hnone => ?_, fun hno =>
      resolveShard_eq_none.mpr hno.notRead⟩
    obtain ⟨hshard, hof⟩ := resolveShard_eq_none.mp hnone
    rcases h with hno | ⟨n, hread⟩ | ⟨n, hread⟩
    · exact hno
    · exact absurd hread (hshard n)
    · exact absurd hread (hof n)

/-- A shard that is mistyped is a run over the whole set. -/
theorem resolveShard_dropped :
    resolveShard ["mirror-client", "media-phash", "--shard", "1/3"] = .ok none ∧
      ¬ Resolves ["mirror-client", "media-phash", "--shard", "1/3"] := by
  have hres : resolveShard ["mirror-client", "media-phash", "--shard", "1/3"]
      = .ok none := by decide +kernel
  refine ⟨hres, fun h => ?_⟩
  exact (h.whole.mp hres).1 (by decide)

end VideoStorage.Mirror
