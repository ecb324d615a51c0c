import BlockScript.Proofs.Space.Distance
import BlockScript.Proofs.World.Attempt
import BlockScript.Proofs.World.Cube
import Mathlib

/-!
# The match that a search finds

A search keeps the best match so far and gives it up only for one that is strictly nearer. So it
ends with the first of the nearest matches on its way through the cube, that is the nearest match of
the cube, of several the first by x, then y, then z. It is stopped where it would have to compare with
a match whose squared distance is out of range. A wider search finds something at least as near, unless
it is stopped so or the wider radius is too great for a signed number of 32 bits.
-/
namespace BlockScript
set_option autoImplicit false

namespace Position

theorem Within.exactDistanceSq_le {origin p : Position} {radius : UInt32}
    (h : Within origin radius p) :
    p.exactDistanceSq origin ≤ 3 * ((radius.toNat : Int) * radius.toNat) := by
  have hsquare : ∀ d : Int, |d| ≤ radius.toNat → d * d ≤ (radius.toNat : Int) * radius.toNat := by
    intro d hd
    rw [← abs_mul_abs_self]
    exact mul_self_le_mul_self (abs_nonneg d) hd
  have hx := hsquare _ h.1
  have hy := hsquare _ h.2.1
  have hz := hsquare _ h.2.2
  unfold exactDistanceSq
  omega

/-- The greatest radius for which every squared distance in the cube has a 64-bit word. -/
def exactRadius : Nat := 1753413056

theorem Within.fits {origin p : Position} {radius : UInt32} (h : Within origin radius p)
    (hradius : radius.toNat ≤ exactRadius) : p.exactDistanceSq origin ≤ Int64.maxValue.toInt := by
  have hcast : (radius.toNat : Int) ≤ 1753413056 := Int.ofNat_le.2 hradius
  have hsquare : (radius.toNat : Int) * radius.toNat ≤ 1753413056 * 1753413056 :=
    mul_self_le_mul_self (Int.natCast_nonneg _) hcast
  have hle := h.exactDistanceSq_le
  rw [Int64.toInt_maxValue]
  omega

theorem Within.exactRadius_lt {origin p : Position} {radius : UInt32} (h : Within origin radius p)
    (hfar : ¬ p.exactDistanceSq origin ≤ Int64.maxValue.toInt) : exactRadius < radius.toNat := by
  by_contra hle
  exact hfar (h.fits (Nat.le_of_not_lt hle))

end Position

namespace Search

variable {σ : Type} {blockAt : Position → Act σ (Except ProbeError (Option Block))}
  {world : σ} {blocks : Position → Option Block} {query : Query} {origin : Position}
  {radius : UInt32}

/-! ## The running best -/

/-- The world after positions have been read one after the other. -/
def afterReading (blockAt : Position → Act σ (Except ProbeError (Option Block))) :
    List Position → σ → σ
  | [], world => world
  | p :: rest, world => afterReading blockAt rest (blockAt p world).2

/-- Whatever has been read before, a reading does not fail and shows the same blocks. -/
def Shows (blockAt : Position → Act σ (Except ProbeError (Option Block))) (world : σ)
    (blocks : Position → Option Block) : Prop :=
  ∀ seen p, (blockAt p (afterReading blockAt seen world)).1 = .ok (blocks p)

theorem Shows.first (h : Shows blockAt world blocks) (p : Position) :
    blockAt p world = (.ok (blocks p), (blockAt p world).2) :=
  Prod.ext (h [] p) rfl

theorem Shows.next (h : Shows blockAt world blocks) (p : Position) :
    Shows blockAt (blockAt p world).2 blocks :=
  fun seen q => h (p :: seen) q

/-- Whether a position is loaded and its block accepted. -/
def matching (blocks : Position → Option Block) (query : Query) (p : Position) : Bool :=
  (blocks p).any query.accepts

/-- What is the best after one more match; nothing if a squared distance is out of range. -/
def keep? (origin : Position) (best : Option Position) (p : Position) : Option (Option Position) :=
  (isNearer? origin p best).map fun nearer => if nearer then some p else best

/-- One step of the search looks at a match, or at nothing. -/
theorem better?_eq (p : Position) (best : Option Position) :
    better? query origin p best (blocks p) =
      if matching blocks query p = true then keep? origin best p else some best := by
  unfold matching
  cases blocks p with
  | none => rfl
  | some block => rfl

/-- A search goes through its positions as long as its distances are in range. -/
theorem nearest_eq (h : Shows blockAt world blocks) (ps : List Position)
    (best : Option Position) :
    (nearest blockAt query origin ps best world).1 =
      ((ps.filter (matching blocks query)).foldlM (keep? origin) best).elim
        (.error (.overflow .distance)) .ok := by
  rw [List.foldlM_filter]
  induction ps generalizing best world with
  | nil => rfl
  | cons p ps ih =>
    have hread : Attempt.ofAct (blockAt p) world = (.ok (blocks p), (blockAt p world).2) := by
      rw [Attempt.ofAct, h.first p]
      rfl
    rw [nearest, Attempt.bind_ok hread, better?_eq, List.foldlM_cons]
    cases if matching blocks query p = true then keep? origin best p else some best with
    | none => rfl
    | some kept => exact ih (h.next p) kept

/-! ## The first of the nearest -/

theorem keep?_eq_some {best kept : Option Position} {p : Position}
    (h : keep? origin best p = some kept) :
    kept = List.argAux (fun a b => a.exactDistanceSq origin < b.exactDistanceSq origin) best p := by
  cases best with
  | none =>
    cases h
    rfl
  | some q =>
    simp only [keep?, isNearer?, Option.map_eq_some_iff, Option.bind_eq_bind,
      Option.bind_eq_some_iff, Position.distanceSq?_eq_some_iff] at h
    obtain ⟨nearer, ⟨here, hhere, there, hthere, hnearer⟩, rfl⟩ := h
    cases hnearer
    simp only [List.argAux, ← hhere, ← hthere, Int64.lt_iff_toInt_lt, decide_eq_true_eq]

/-- A comparison needs both squared distances. -/
theorem keep?_eq_none {best : Option Position} {p : Position} (h : keep? origin best p = none) :
    ∃ q, (q = p ∨ best = some q) ∧ Int64.maxValue.toInt < q.exactDistanceSq origin := by
  cases best with
  | none => cases h
  | some q =>
    simp only [keep?, isNearer?, Option.map_eq_none_iff, Option.bind_eq_bind] at h
    cases hhere : p.distanceSq? origin with
    | none => exact ⟨p, .inl rfl, Position.distanceSq?_eq_none_iff.1 hhere⟩
    | some here =>
      cases hthere : q.distanceSq? origin with
      | none => exact ⟨q, .inr rfl, Position.distanceSq?_eq_none_iff.1 hthere⟩
      | some there =>
        rw [hhere, hthere] at h
        cases h

/-- Keeping the nearer of two from the first to the last ends with the first minimum. -/
theorem foldlM_keep?_eq_some {best kept : Option Position} {ps : List Position}
    (h : ps.foldlM (keep? origin) best = some kept) :
    kept = ps.foldl
      (List.argAux fun a b => a.exactDistanceSq origin < b.exactDistanceSq origin) best := by
  induction ps generalizing best with
  | nil =>
    cases h
    rfl
  | cons p ps ih =>
    rw [List.foldlM_cons, Option.bind_eq_bind, Option.bind_eq_some_iff] at h
    obtain ⟨next, hfirst, hrest⟩ := h
    rw [List.foldl_cons, ← keep?_eq_some hfirst]
    exact ih hrest

theorem foldlM_keep?_eq_none {best : Option Position} {ps : List Position}
    (h : ps.foldlM (keep? origin) best = none) :
    ∃ q, (best = some q ∨ q ∈ ps) ∧ Int64.maxValue.toInt < q.exactDistanceSq origin := by
  induction ps generalizing best with
  | nil => cases h
  | cons p ps ih =>
    rw [List.foldlM_cons, Option.bind_eq_bind] at h
    cases hfirst : keep? origin best p with
    | none =>
      obtain ⟨q, hq, hfar⟩ := keep?_eq_none hfirst
      refine ⟨q, ?_, hfar⟩
      rcases hq with rfl | hq
      · exact .inr List.mem_cons_self
      · exact .inl hq
    | some next =>
      rw [hfirst] at h
      obtain ⟨q, hq, hfar⟩ := ih h
      refine ⟨q, ?_, hfar⟩
      rcases hq with rfl | hq
      · -- What is kept is the match or the best before it.
        have hkept := keep?_eq_some hfirst
        cases best with
        | none =>
          obtain rfl : q = p := Option.some.inj hkept
          exact .inr List.mem_cons_self
        | some b =>
          dsimp only [List.argAux] at hkept
          split at hkept
          · obtain rfl : q = p := Option.some.inj hkept
            exact .inr List.mem_cons_self
          · exact .inl hkept.symm
      · exact .inr (List.mem_cons_of_mem _ hq)

/-- The matches of a cube in the order of the visits. -/
def matchesIn (blocks : Position → Option Block) (query : Query) (origin : Position)
    (radius : UInt32) : List Position :=
  (cube origin (offsets radius)).filter (matching blocks query)

/-- A search ends with the first minimum among the matches that it visits, or a match is so far away
that its squared distance is out of range. -/
theorem find_of_lt (origin : Position) (h : Shows blockAt world blocks) (hpin : query.pin = none)
    (hsigned : radius.toNat < 2 ^ 31) :
    (find blockAt query origin radius world).1 =
        .ok ((matchesIn blocks query origin radius).argmin (·.exactDistanceSq origin)) ∨
      (find blockAt query origin radius world).1 = .error (.overflow .distance) ∧
        ∃ p ∈ matchesIn blocks query origin radius,
          Int64.maxValue.toInt < p.exactDistanceSq origin := by
  have hwalk : (find blockAt query origin radius world).1 =
      ((matchesIn blocks query origin radius).foldlM (keep? origin) none).elim
        (.error (.overflow .distance)) .ok := by
    rw [find, hpin]
    dsimp only
    rw [offsets?_of_lt hsigned, Attempt.checked_some_bind]
    exact nearest_eq h _ none
  rw [hwalk]
  cases hkept : (matchesIn blocks query origin radius).foldlM (keep? origin) none with
  | none =>
    obtain ⟨q, hq, hfar⟩ := foldlM_keep?_eq_none hkept
    exact .inr ⟨rfl, q, hq.resolve_left nofun, hfar⟩
  | some kept => exact .inl (congrArg Except.ok (foldlM_keep?_eq_some hkept))

theorem find_of_eq (hpin : query.pin = none) (hradius : radius.toNat = 2 ^ 31) :
    (find blockAt query origin radius world).1 = .error (.overflow .radius) := by
  rw [find, hpin]
  dsimp only
  rw [offsets?_of_eq hradius]
  rfl

theorem find_of_gt (hpin : query.pin = none) (hradius : 2 ^ 31 < radius.toNat) :
    (find blockAt query origin radius world).1 = .ok none := by
  rw [find, hpin]
  dsimp only
  rw [offsets?_of_gt hradius]
  rfl

theorem mem_matchesIn (h : radius.toNat < 2 ^ 31) {p : Position} :
    p ∈ matchesIn blocks query origin radius ↔
      Position.Within origin radius p ∧ matching blocks query p = true := by
  rw [matchesIn, List.mem_filter, mem_cube h]

theorem argmin_eq_none_iff (hsigned : radius.toNat < 2 ^ 31) :
    (matchesIn blocks query origin radius).argmin (·.exactDistanceSq origin) = none ↔
      ∀ p, Position.Within origin radius p → ¬ matching blocks query p = true := by
  simp only [List.argmin_eq_none, List.eq_nil_iff_forall_not_mem, mem_matchesIn hsigned, not_and]

/-! ## The nearest match -/

/-- A nearest match of the cube, and of several the first. -/
structure IsNearest (blocks : Position → Option Block) (query : Query) (origin : Position)
    (radius : UInt32) (p : Position) : Prop where
  within : Position.Within origin radius p
  matched : matching blocks query p = true
  nearest : ∀ q, Position.Within origin radius q → matching blocks query q = true →
    p.exactDistanceSq origin ≤ q.exactDistanceSq origin
  first : ∀ q, Position.Within origin radius q → matching blocks query q = true →
    q.exactDistanceSq origin = p.exactDistanceSq origin → p = q ∨ p.Precedes q

/-- The first minimum is the nearest match. -/
theorem isNearest_of_argmin (hsigned : radius.toNat < 2 ^ 31) {p : Position}
    (h : (matchesIn blocks query origin radius).argmin (·.exactDistanceSq origin) = some p) :
    IsNearest blocks query origin radius p := by
  obtain ⟨hmem, hmin, hfirst⟩ := List.argmin_eq_some_iff.1 h
  obtain ⟨hwithin, hmatched⟩ := (mem_matchesIn hsigned).1 hmem
  refine ⟨hwithin, hmatched, ?_, ?_⟩
  · intro q hq hqmatched
    exact hmin q ((mem_matchesIn hsigned).2 ⟨hq, hqmatched⟩)
  · intro q hq hqmatched hsame
    have hqmem : q ∈ matchesIn blocks query origin radius :=
      (mem_matchesIn hsigned).2 ⟨hq, hqmatched⟩
    -- Had the search met the other one before, it would have kept it.
    refine Position.precedes_or_eq fun hbefore => ?_
    have hlt := (cube_inOrder hsigned).filter _ q hqmem p hmem hbefore
    have hle := hfirst q hqmem hsame.le
    exact absurd hlt (Nat.not_lt.2 hle)

/-- Wherever the origin is, a search answers with the nearest match of its cube, of several the
first by x, then y, then z, and with nothing exactly when the cube has no match. -/
theorem find_returns_nearest (hshows : Shows blockAt world blocks) (hpin : query.pin = none)
    (hradius : radius.toNat ≤ 2 ^ 30) :
    ∃ found after, find blockAt query origin radius world = (.ok found, after) ∧
      (found = none ↔
        ∀ p, Position.Within origin radius p → ¬ matching blocks query p = true) ∧
      ∀ p, found = some p → IsNearest blocks query origin radius p := by
  have hsigned : radius.toNat < 2 ^ 31 := by omega
  have hexact : radius.toNat ≤ Position.exactRadius := hradius.trans (by decide)
  rcases find_of_lt origin hshows hpin hsigned with hfound | ⟨-, p, hp, hfar⟩
  · exact ⟨_, _, Prod.ext hfound rfl, argmin_eq_none_iff hsigned,
      fun p hp => isNearest_of_argmin hsigned hp⟩
  · have hfits := ((mem_matchesIn hsigned).1 hp).1.fits hexact
    exact absurd hfar (not_lt.2 hfits)

/-- Stones at some positions, and nothing else loaded. -/
def stonesAt (positions : List Position) (p : Position) : Option Block :=
  if p ∈ positions then some (Block.plain "stone") else none

/-- A world that shows the same blocks for ever and counts how often it is read. -/
def counting (blocks : Position → Option Block) (p : Position) :
    Act Nat (Except ProbeError (Option Block)) :=
  fun reads => (.ok (blocks p), reads + 1)

theorem shows_counting (blocks : Position → Option Block) (reads : Nat) :
    Shows (counting blocks) reads blocks :=
  fun _ _ => rfl

def anyStone : Query := ⟨Dict.empty.insert "name" "minecraft:stone", none⟩

/-- A corner of the coordinate range. -/
def corner : Position := ⟨2147483647, -2147483648, 2147483647⟩

/-- Three stones beside the corner, the first of them last. -/
def besideCorner : List Position :=
  [⟨2147483647, -2147483647, 2147483647⟩, ⟨2147483647, -2147483648, 2147483646⟩,
    ⟨2147483646, -2147483648, 2147483647⟩]

/-- At the corner the cube of radius two is folded onto 27 positions. -/
theorem find_returns_nearest_at_corner :
    (find (counting (stonesAt besideCorner)) anyStone corner 2 0).1 =
        .ok (some ⟨2147483646, -2147483648, 2147483647⟩) ∧
      ∃ found after,
        find (counting (stonesAt besideCorner)) anyStone corner 2 0 = (.ok found, after) ∧
        (found = none ↔ ∀ p, Position.Within corner 2 p →
          ¬ matching (stonesAt besideCorner) anyStone p = true) ∧
        ∀ p, found = some p → IsNearest (stonesAt besideCorner) anyStone corner 2 p :=
  ⟨by decide +kernel, find_returns_nearest (shows_counting _ 0) rfl (by decide)⟩

/-! ## Wider searches -/

/-- A wider search, from a world with the same blocks, finds a match that is at least as near, or it
is stopped: its cube then holds a match whose squared distance is out of range. Excepted are wider
radii from `2^31` on: the least of them stops the search, and the others find nothing. -/
theorem wider_search_keeps_match {later : σ} {r s : UInt32} {near : Position}
    (hshows : Shows blockAt world blocks) (hlater : Shows blockAt later blocks)
    (hpin : query.pin = none) (hle : r ≤ s)
    (hfound : (find blockAt query origin r world).1 = .ok (some near)) :
    (s.toNat < 2 ^ 31 →
      (∃ nearer, (find blockAt query origin s later).1 = .ok (some nearer) ∧
        nearer.exactDistanceSq origin ≤ near.exactDistanceSq origin) ∨
      ((find blockAt query origin s later).1 = .error (.overflow .distance) ∧
        Position.exactRadius < s.toNat ∧
        ∃ p, Position.Within origin s p ∧ matching blocks query p = true ∧
          Int64.maxValue.toInt < p.exactDistanceSq origin)) ∧
    (s.toNat = 2 ^ 31 → (find blockAt query origin s later).1 = .error (.overflow .radius)) ∧
    (2 ^ 31 < s.toNat → (find blockAt query origin s later).1 = .ok none) := by
  refine ⟨fun hsigned => ?_, find_of_eq hpin, find_of_gt hpin⟩
  have hrs := UInt32.le_iff_toNat_le.1 hle
  have hnear : IsNearest blocks query origin r near := by
    rcases find_of_lt origin hshows hpin (by omega : r.toNat < 2 ^ 31) with
      h | ⟨h, -⟩
    · exact isNearest_of_argmin (by omega) (Except.ok.inj (h.symm.trans hfound))
    · rw [h] at hfound
      cases hfound
  have hwider := hnear.within.mono hle
  rcases find_of_lt origin hlater hpin hsigned with h | ⟨h, p, hp, hfar⟩
  · left
    cases hbest : (matchesIn blocks query origin s).argmin (·.exactDistanceSq origin) with
    | none => exact absurd hnear.matched ((argmin_eq_none_iff hsigned).1 hbest near hwider)
    | some nearer =>
      rw [hbest] at h
      exact ⟨nearer, h, (isNearest_of_argmin hsigned hbest).nearest near hwider hnear.matched⟩
  · obtain ⟨hwithin, hmatched⟩ := (mem_matchesIn hsigned).1 hp
    exact .inr ⟨h, hwithin.exactRadius_lt (not_le.2 hfar), p, hwithin, hmatched, hfar⟩

/-- A stone at a corner of the smaller cube is given up for one on an axis of the wider. -/
theorem wider_search_finds_nearer :
    let blockAt := counting (stonesAt [⟨2, 66, 2⟩, ⟨3, 64, 0⟩])
    (find blockAt anyStone ⟨0, 64, 0⟩ 2 0).1 = .ok (some ⟨2, 66, 2⟩) ∧
      (find blockAt anyStone ⟨0, 64, 0⟩ 3 125).1 = .ok (some ⟨3, 64, 0⟩) ∧
      ∃ nearer, (find blockAt anyStone ⟨0, 64, 0⟩ 3 125).1 = .ok (some nearer) ∧
        nearer.exactDistanceSq ⟨0, 64, 0⟩ ≤ Position.exactDistanceSq ⟨2, 66, 2⟩ ⟨0, 64, 0⟩ := by
  intro blockAt
  have hfound : (find blockAt anyStone ⟨0, 64, 0⟩ 2 0).1 = .ok (some ⟨2, 66, 2⟩) := by
    decide +kernel
  have hwider : (find blockAt anyStone ⟨0, 64, 0⟩ 3 125).1 = .ok (some ⟨3, 64, 0⟩) := by
    decide +kernel
  obtain ⟨hkept, -, -⟩ := wider_search_keeps_match (s := 3) (shows_counting _ 0)
    (shows_counting _ 125) rfl (by decide) hfound
  refine ⟨hfound, hwider, (hkept (by decide)).resolve_right fun hstopped => ?_⟩
  exact absurd hstopped.2.1 (by decide)

/-- The widest search of all overlooks a stone at its own origin. -/
theorem widest_search_loses_match :
    (find (counting (stonesAt [⟨0, 64, 0⟩])) anyStone ⟨0, 64, 0⟩ 0 0).1 =
        .ok (some ⟨0, 64, 0⟩) ∧
      (find (counting (stonesAt [⟨0, 64, 0⟩])) anyStone ⟨0, 64, 0⟩ 4294967295 1).1 = .ok none := by
  decide +kernel

end Search

end BlockScript
