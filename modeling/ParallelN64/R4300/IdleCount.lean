import ParallelN64.Core.Loops
import ParallelN64.Core.Word
import ParallelN64.R4300.EventQueue

/-!
# Counting in an idle loop

A jump to itself with an empty delay slot only moves Count, by the same step each turn, until
the next interrupt is due. Its shortcut first moves Count by all of the distance but its last
two bits. The two are compared here as loops over Count alone.
-/

namespace ParallelN64.R4300

open ParallelN64.Core

/-- What the turns of one idle loop share. -/
structure IdleLoop where
  step : Word
  nextInterrupt : Word
  jumps : Bool
  stays : Bool

/-- One turn of an idle loop: Count, whether the jump is taken next, whether the program counter
is still at it, and whether the loop is over. -/
structure Turn where
  count : Word
  take : Bool
  here : Bool
  ended : Bool
  deriving DecidableEq

/-- The jump is run, and then the interrupt check. -/
def IdleLoop.plain (l : IdleLoop) (x : Turn) : Turn where
  count := x.count + l.step
  take := l.stays
  here := x.take && l.jumps
  ended := decide (l.nextInterrupt ≤ x.count + l.step) || !(x.take && l.jumps)

def IdleLoop.skips (l : IdleLoop) (count : Word) : Bool :=
  decide (3 < (l.nextInterrupt - count).toInt)

def IdleLoop.skipTo (l : IdleLoop) (count : Word) : Word :=
  count + ((l.nextInterrupt - count) &&& 0xFFFFFFFC#32)

def IdleLoop.idle (l : IdleLoop) (x : Turn) : Turn :=
  if x.take && l.skips x.count then ⟨l.skipTo x.count, x.take, true, false⟩ else l.plain x

def IdleLoop.PlainEnds (l : IdleLoop) : Turn → Turn → Prop := Ends Turn.ended l.plain

def IdleLoop.IdleEnds (l : IdleLoop) : Turn → Turn → Prop := Ends Turn.ended l.idle

def IdleLoop.Alike (l : IdleLoop) (x : Turn) : Prop := ∀ y, l.PlainEnds x y ↔ l.IdleEnds x y

variable {l : IdleLoop} {x y : Turn}

theorem toNat_skipTo (count : Word) :
    (l.skipTo count).toNat = (count.toNat + (l.nextInterrupt - count).toNat / 4 * 4) % 2 ^ 32 := by
  have hmask : ((l.nextInterrupt - count) &&& 0xFFFFFFFC#32).toNat =
      (l.nextInterrupt - count).toNat / 4 * 4 := by
    rw [BitVec.toNat_and]
    have hones := and_ones_mul_two_pow (l.nextInterrupt - count).toNat 30 2
    have hlt := (l.nextInterrupt - count).isLt
    rw [Nat.mod_eq_of_lt (a := _ / 2 ^ 2) (by omega)] at hones
    exact hones
  rw [IdleLoop.skipTo, BitVec.toNat_add, hmask]

theorem toNat_sub_skipTo (count : Word) :
    (l.nextInterrupt - l.skipTo count).toNat = (l.nextInterrupt - count).toNat % 4 := by
  have hto := toNat_skipTo (l := l) count
  have hn := l.nextInterrupt.isLt
  have hc := count.isLt
  rw [BitVec.toNat_sub] at hto ⊢
  rw [BitVec.toNat_sub]
  omega

theorem skips_iff (count : Word) :
    l.skips count = true ↔
      3 < (l.nextInterrupt - count).toNat ∧ (l.nextInterrupt - count).toNat < 2 ^ 31 := by
  have hlt := (l.nextInterrupt - count).isLt
  rw [IdleLoop.skips, decide_eq_true_eq, BitVec.toInt_eq_toNat_cond]
  split_ifs <;> omega

theorem skips_skipTo (count : Word) : l.skips (l.skipTo count) = false := by
  have hiff := skips_iff (l := l) (l.skipTo count)
  rw [toNat_sub_skipTo] at hiff
  cases hskips : l.skips (l.skipTo count) with
  | false => rfl
  | true =>
    have hlow := (hiff.mp hskips).1
    have hmod := Nat.mod_lt (l.nextInterrupt - count).toNat (show 0 < 4 by decide)
    omega

theorem skipTo_ne {count : Word} (h : l.skips count = true) : l.skipTo count ≠ count := by
  intro heq
  have hagain := skips_skipTo (l := l) count
  rw [heq, h] at hagain
  exact Bool.noConfusion hagain

theorem toNat_skipTo_of_le {count : Word} (h : count.toNat ≤ l.nextInterrupt.toNat) :
    (l.skipTo count).toNat =
      l.nextInterrupt.toNat - (l.nextInterrupt.toNat - count.toNat) % 4 := by
  have hn := l.nextInterrupt.isLt
  rw [toNat_skipTo, BitVec.toNat_sub]
  omega

theorem skips_iff_of_le {count : Word} (h : count.toNat ≤ l.nextInterrupt.toNat) :
    l.skips count = true ↔ 3 < l.nextInterrupt.toNat - count.toNat ∧
      l.nextInterrupt.toNat - count.toNat < 2 ^ 31 := by
  have hn := l.nextInterrupt.isLt
  rw [skips_iff, BitVec.toNat_sub]
  omega

theorem idle_eq_plain (h : (x.take && l.skips x.count) = false) : l.idle x = l.plain x := by
  rw [IdleLoop.idle, if_neg (by simp [h])]

theorem idle_eq_skip (htake : x.take = true) (h : l.skips x.count = true) :
    l.idle x = ⟨l.skipTo x.count, true, true, false⟩ := by
  rw [IdleLoop.idle, if_pos (by simp [h, htake]), htake]

theorem idleEnds_of_skips (htake : x.take = true) (h : l.skips x.count = true) :
    l.IdleEnds x y ↔ l.IdleEnds ⟨l.skipTo x.count, true, true, false⟩ y := by
  rw [IdleLoop.IdleEnds, ends_of_again (by rw [idle_eq_skip htake h]), idle_eq_skip htake h]

theorem plainEnds_of_due (h : l.nextInterrupt ≤ x.count + l.step) :
    l.PlainEnds x y ↔ y = l.plain x :=
  ends_of_over (by simp [IdleLoop.plain, h])

theorem idleEnds_of_due (hskips : (x.take && l.skips x.count) = false)
    (h : l.nextInterrupt ≤ x.count + l.step) : l.IdleEnds x y ↔ y = l.plain x := by
  rw [IdleLoop.IdleEnds, ends_of_over (by rw [idle_eq_plain hskips]; simp [IdleLoop.plain, h]),
    idle_eq_plain hskips]

/-- The turn of a loop that ends with its interrupt. -/
structure Turn.Due (y : Turn) : Prop where
  take : y.take = true
  here : y.here = true
  ended : y.ended = true

theorem Turn.Due.ext {y z : Turn} (hy : y.Due) (hz : z.Due)
    (h : y.count.toNat = z.count.toNat) : y = z := by
  obtain ⟨count, take, here, ended⟩ := y
  obtain ⟨count', take', here', ended'⟩ := z
  obtain ⟨rfl, rfl, rfl⟩ := hy
  obtain ⟨rfl, rfl, rfl⟩ := hz
  obtain rfl : count = count' := BitVec.eq_of_toNat_eq h
  rfl

section Spinning

variable (hjumps : l.jumps = true) (hstays : l.stays = true)

include hjumps hstays

theorem due_plain (htake : x.take = true) (h : l.nextInterrupt ≤ x.count + l.step) :
    (l.plain x).Due where
  take := hstays
  here := by simp [IdleLoop.plain, htake, hjumps]
  ended := by simp [IdleLoop.plain, h]

theorem plainEnds_iff (hroom : l.nextInterrupt.toNat + l.step.toNat < 2 ^ 32)
    (htake : x.take = true) (hlt : x.count.toNat < l.nextInterrupt.toNat) :
    l.PlainEnds x y ↔ y.Due ∧ l.nextInterrupt.toNat ≤ y.count.toNat ∧
      y.count.toNat < l.nextInterrupt.toNat + l.step.toNat ∧
      l.step.toNat ∣ y.count.toNat - x.count.toNat := by
  have hnext (x : Turn) (h : x.count.toNat < l.nextInterrupt.toNat) :
      (l.plain x).count.toNat = x.count.toNat + l.step.toNat := by
    change (x.count + l.step).toNat = _
    rw [BitVec.toNat_add, Nat.mod_eq_of_lt (by omega)]
  have hagain (x : Turn) (htake : x.take = true) (h : x.count.toNat < l.nextInterrupt.toNat)
      (hshort : x.count.toNat + l.step.toNat < l.nextInterrupt.toNat) :
      (l.plain x).ended = false := by
    have hcount := hnext x h
    simp only [IdleLoop.plain, htake, hjumps, Bool.and_self, Bool.not_true, Bool.or_false,
      decide_eq_false_iff_not, BitVec.le_def] at hcount ⊢
    omega
  rcases Nat.eq_zero_or_pos l.step.toNat with hzero | hpos
  · -- a loop that does not count never ends
    constructor
    · intro hends
      refine absurd hends (not_ends_of_keep
        (P := fun z => z.take = true ∧ z.count.toNat < l.nextInterrupt.toNat) ?_ ⟨htake, hlt⟩)
      intro z hz
      have hcount := hnext z hz.2
      exact ⟨⟨hstays, by omega⟩, hagain z hz.1 hz.2 (by omega)⟩
    · rintro ⟨-, hle, hless, -⟩
      omega
  · -- induction on the distance to the interrupt
    obtain ⟨n, hn⟩ : ∃ n, l.nextInterrupt.toNat - x.count.toNat ≤ n := ⟨_, le_rfl⟩
    induction n generalizing x with
    | zero => omega
    | succ n ih =>
      have hcount := hnext x hlt
      by_cases hshort : x.count.toNat + l.step.toNat < l.nextInterrupt.toNat
      · have hrest := ih (x := l.plain x) hstays (by omega) (by omega)
        rw [IdleLoop.PlainEnds, ends_of_again (hagain x htake hlt hshort)]
        refine hrest.trans (and_congr_right fun _ => and_congr_right fun hle =>
          and_congr_right fun _ => ?_)
        have hsub : y.count.toNat - x.count.toNat =
            y.count.toNat - (l.plain x).count.toNat + l.step.toNat := by omega
        rw [hsub, Nat.dvd_add_self_right]
      · have hdue : l.nextInterrupt ≤ x.count + l.step := by
          rw [BitVec.le_def]
          change _ ≤ (l.plain x).count.toNat
          omega
        rw [plainEnds_of_due hdue]
        have hplain := due_plain hjumps hstays htake hdue
        constructor
        · rintro rfl
          refine ⟨hplain, by omega, by omega, ?_⟩
          rw [hcount, Nat.add_sub_cancel_left]
        · rintro ⟨hy, hle, hless, m, hm⟩
          refine hy.ext hplain ?_
          -- the distance is a positive multiple of the step below two steps
          have hone : m = 1 := by
            have hbelow : l.step.toNat * m < l.step.toNat * 2 := by omega
            have hm2 := Nat.lt_of_mul_lt_mul_left hbelow
            have hm0 : m ≠ 0 := by
              rintro rfl
              omega
            omega
          rw [hone, Nat.mul_one] at hm
          omega

theorem exists_plainEnds (hroom : l.nextInterrupt.toNat + l.step.toNat < 2 ^ 32)
    (hpos : 0 < l.step.toNat) (htake : x.take = true)
    (hlt : x.count.toNat < l.nextInterrupt.toNat) : ∃ y, l.PlainEnds x y := by
  have hdiv := Nat.div_add_mod (l.nextInterrupt.toNat - x.count.toNat - 1) l.step.toNat
  have hmod := Nat.mod_lt (l.nextInterrupt.toNat - x.count.toNat - 1) hpos
  obtain ⟨turns, hturns⟩ : ∃ n, l.step.toNat *
      ((l.nextInterrupt.toNat - x.count.toNat - 1) / l.step.toNat) = n := ⟨_, rfl⟩
  have hsum : (x.count.toNat + turns + l.step.toNat) % 2 ^ 32 =
      x.count.toNat + turns + l.step.toNat := Nat.mod_eq_of_lt (by omega)
  refine ⟨⟨BitVec.ofNat 32 (x.count.toNat + turns + l.step.toNat), true, true, true⟩, ?_⟩
  rw [plainEnds_iff hjumps hstays hroom htake hlt, BitVec.toNat_ofNat, hsum]
  refine ⟨⟨rfl, rfl, rfl⟩, by omega, by omega, ?_⟩
  rw [Nat.add_assoc, Nat.add_sub_cancel_left, ← hturns]
  exact Nat.dvd_add (Nat.dvd_mul_right _ _) (Nat.dvd_refl _)

end Spinning

theorem alike_of_not_taken (htake : x.take = false) : l.Alike x := fun y =>
  ends_congr (P := fun z => z.take = false)
    (fun z hz => (idle_eq_plain (by rw [hz, Bool.false_and])).symm)
    (fun z hz hover => by simp [IdleLoop.plain, hz] at hover) htake

theorem idleEnds_near (hroom : l.nextInterrupt.toNat + l.step.toNat < 2 ^ 32)
    (hlt : x.count.toNat < l.nextInterrupt.toNat)
    (hnear : l.nextInterrupt.toNat ≤ x.count.toNat + 3) : l.IdleEnds x y ↔ l.PlainEnds x y := by
  refine (ends_congr (P := fun z => z.count.toNat < l.nextInterrupt.toNat ∧
    l.nextInterrupt.toNat ≤ z.count.toNat + 3) ?_ ?_ ⟨hlt, hnear⟩).symm
  · intro z hz
    refine (idle_eq_plain ?_).symm
    cases hskips : l.skips z.count with
    | false => exact Bool.and_false _
    | true =>
      have hfar := (skips_iff_of_le (by omega)).mp hskips
      omega
  · intro z hz hover
    have hcount : (z.count + l.step).toNat = z.count.toNat + l.step.toNat := by
      rw [BitVec.toNat_add, Nat.mod_eq_of_lt (by omega)]
    have hshort : ¬ l.nextInterrupt ≤ z.count + l.step := by
      intro hle
      simp [IdleLoop.plain, hle] at hover
    rw [BitVec.le_def] at hshort
    change (z.count + l.step).toNat < _ ∧ _ ≤ (z.count + l.step).toNat + 3
    omega

theorem idleEnds_exact (htake : x.take = true) (hle : x.count.toNat ≤ l.nextInterrupt.toNat)
    (hroom : l.nextInterrupt.toNat + l.step.toNat < 2 ^ 32) (hskips : l.skips x.count = true)
    (hrest : (l.nextInterrupt.toNat - x.count.toNat) % 4 = 0) :
    l.IdleEnds x y ↔ y = l.plain ⟨l.nextInterrupt, true, true, false⟩ := by
  have hto : l.skipTo x.count = l.nextInterrupt := by
    apply BitVec.eq_of_toNat_eq
    rw [toNat_skipTo_of_le hle, hrest, Nat.sub_zero]
  have hdue : l.nextInterrupt ≤ l.nextInterrupt + l.step := by
    rw [BitVec.le_def, BitVec.toNat_add, Nat.mod_eq_of_lt hroom]
    exact Nat.le_add_right _ _
  have hagain := skips_skipTo (l := l) x.count
  rw [idleEnds_of_skips htake hskips]
  rw [hto] at hagain ⊢
  exact idleEnds_of_due (by simp [hagain]) hdue

theorem idleEnds_short (htake : x.take = true) (hle : x.count.toNat ≤ l.nextInterrupt.toNat)
    (hroom : l.nextInterrupt.toNat + l.step.toNat < 2 ^ 32) (hskips : l.skips x.count = true)
    (hrest : (l.nextInterrupt.toNat - x.count.toNat) % 4 ≠ 0) :
    l.IdleEnds x y ↔ l.PlainEnds ⟨l.skipTo x.count, true, true, false⟩ y := by
  have hto := toNat_skipTo_of_le hle
  rw [idleEnds_of_skips htake hskips]
  apply idleEnds_near hroom
  · change (l.skipTo x.count).toNat < _
    omega
  · change _ ≤ (l.skipTo x.count).toNat + 3
    omega

theorem count_le_of_idleEnds (hjumps : l.jumps = true) (hstays : l.stays = true)
    (hroom : l.nextInterrupt.toNat + l.step.toNat < 2 ^ 32) (htake : x.take = true)
    (hlt : x.count.toNat < l.nextInterrupt.toNat)
    (hahead : l.nextInterrupt.toNat - x.count.toNat < 2 ^ 31) (h : l.IdleEnds x y) :
    y.count.toNat ≤ l.nextInterrupt.toNat + l.step.toNat := by
  cases hskips : l.skips x.count with
  | false =>
    have hnear : l.nextInterrupt.toNat ≤ x.count.toNat + 3 := by
      by_contra hfar
      have htrue := (skips_iff_of_le hlt.le).mpr ⟨by omega, hahead⟩
      rw [hskips] at htrue
      exact Bool.noConfusion htrue
    rw [idleEnds_near hroom hlt hnear, plainEnds_iff hjumps hstays hroom htake hlt] at h
    omega
  | true =>
    by_cases hrest : (l.nextInterrupt.toNat - x.count.toNat) % 4 = 0
    · rw [idleEnds_exact htake hlt.le hroom hskips hrest] at h
      rw [h]
      change (l.nextInterrupt + l.step).toNat ≤ _
      rw [BitVec.toNat_add, Nat.mod_eq_of_lt hroom]
    · have hto := toNat_skipTo_of_le (l := l) hlt.le
      rw [idleEnds_short htake hlt.le hroom hskips hrest,
        plainEnds_iff hjumps hstays hroom rfl (by change (l.skipTo x.count).toNat < _; omega)] at h
      omega

def IdleLoop.stop (l : IdleLoop) (x : Turn) : Turn :=
  if (l.plain x).ended then l.plain x else l.plain (l.plain x)

section Leaving

variable (hleaves : (l.jumps && l.stays) = false)

include hleaves

theorem stays_of_again (h : (l.plain x).ended = false) : l.jumps = true ∧ l.stays = false := by
  have hjumps : l.jumps = true := by
    simp only [IdleLoop.plain, Bool.or_eq_false_iff, Bool.not_eq_false', Bool.and_eq_true] at h
    exact h.2.2
  exact ⟨hjumps, by simpa [hjumps] using hleaves⟩

theorem plainEnds_of_leaves : l.PlainEnds x y ↔ y = l.stop x := by
  cases hover : (l.plain x).ended with
  | true =>
    rw [IdleLoop.stop, if_pos hover]
    exact ends_of_over hover
  | false =>
    obtain ⟨-, hstays⟩ := stays_of_again hleaves hover
    rw [IdleLoop.stop, if_neg (by simp [hover]), IdleLoop.PlainEnds, ends_of_again hover,
      ends_of_over (by simp [IdleLoop.plain, hstays])]

theorem idleEnds_of_leaves (hskips : (x.take && l.skips x.count) = false) :
    l.IdleEnds x y ↔ l.PlainEnds x y := by
  refine (ends_congr (P := fun z => (z.take && l.skips z.count) = false)
    (fun z hz => (idle_eq_plain hz).symm) (fun z hz hover => ?_) hskips).symm
  obtain ⟨-, hstays⟩ := stays_of_again hleaves hover
  simp [IdleLoop.plain, hstays]

theorem count_eq_of_stop (htake : x.take = true) (htake' : y.take = true)
    (h : l.stop x = l.stop y) : x.count = y.count := by
  -- the loop stops behind one turn with the program counter at the jump, or behind two without
  have hhere (z : Turn) (hz : z.take = true) :
      (l.plain z).ended = true ∧ l.stop z = l.plain z ∨
        (l.plain z).ended = false ∧ l.jumps = true ∧ (l.stop z).here = false ∧
          (l.stop z).count = z.count + l.step + l.step := by
    cases hover : (l.plain z).ended with
    | true => exact Or.inl ⟨rfl, by rw [IdleLoop.stop, if_pos hover]⟩
    | false =>
      obtain ⟨hjumps, hstays⟩ := stays_of_again hleaves hover
      refine Or.inr ⟨rfl, hjumps, ?_, ?_⟩
      · rw [IdleLoop.stop, if_neg (by simp [hover])]
        simp [IdleLoop.plain, hstays]
      · rw [IdleLoop.stop, if_neg (by simp [hover])]
        rfl
  have hplain (z : Turn) (hz : z.take = true) : (l.plain z).here = l.jumps := by
    simp [IdleLoop.plain, hz]
  rcases hhere x htake with ⟨-, hx⟩ | ⟨-, hjumps, hx, hxcount⟩ <;>
    rcases hhere y htake' with ⟨-, hy⟩ | ⟨-, hjumps', hy, hycount⟩
  · rw [hx, hy] at h
    exact (BitVec.add_left_inj l.step).mp (congrArg Turn.count h)
  · rw [← h, hx, hplain x htake, hjumps'] at hy
    exact Bool.noConfusion hy
  · rw [h, hy, hplain y htake', hjumps] at hx
    exact Bool.noConfusion hx
  · rw [h, hycount] at hxcount
    exact ((BitVec.add_left_inj l.step).mp ((BitVec.add_left_inj l.step).mp hxcount)).symm

theorem not_alike_of_leaves (htake : x.take = true) (hskips : l.skips x.count = true) :
    ¬ l.Alike x := by
  intro halike
  have hends := (halike (l.stop x)).mp ((plainEnds_of_leaves hleaves).mpr rfl)
  rw [idleEnds_of_skips htake hskips,
    idleEnds_of_leaves hleaves (by simp [skips_skipTo]), plainEnds_of_leaves hleaves] at hends
  exact skipTo_ne hskips (count_eq_of_stop hleaves htake rfl hends).symm

end Leaving

/-- Neither Count nor the next interrupt is within one turn of the limit of Count, and the
interrupt lies less than half of the range of Count ahead. -/
structure IdleLoop.Near (l : IdleLoop) (count : Word) : Prop where
  turn : count.toNat + l.step.toNat < 2 ^ 32
  room : l.nextInterrupt.toNat + l.step.toNat < 2 ^ 32
  ahead : count.toNat ≤ l.nextInterrupt.toNat → l.nextInterrupt.toNat - count.toNat < 2 ^ 31

/-- The distance to the interrupt is no multiple of 4, and what the shortcut skips of it is made
of whole turns. Where a turn does not count, neither loop ends. -/
structure IdleLoop.Lands (l : IdleLoop) (count : Word) : Prop where
  le : count.toNat ≤ l.nextInterrupt.toNat
  rest : (l.nextInterrupt.toNat - count.toNat) % 4 ≠ 0
  whole : l.step = 0#32 ∨
    l.step.toNat ∣ l.nextInterrupt.toNat - count.toNat - (l.nextInterrupt.toNat - count.toNat) % 4

/-- The counts at which a loop comes to its jump before the interrupt is due. -/
inductive IdleLoop.Visits (l : IdleLoop) (count : Word) : Word → Prop where
  | first : l.Visits count count
  | turn {z : Word} (h : l.Visits count z) (hspins : (l.jumps && l.stays) = true)
    (hwaits : z + l.step < l.nextInterrupt) : l.Visits count (z + l.step)

/-- The shortcut finds nothing to skip at any of them. -/
def IdleLoop.NeverSkips (l : IdleLoop) (count : Word) : Prop :=
  ∀ z, l.Visits count z → l.skips z = false

theorem alike_of_neverSkips (h : l.NeverSkips x.count) : l.Alike x := fun y =>
  ends_congr (P := fun z => z.take = false ∨ l.Visits x.count z.count)
    (fun z hz => by
      refine (idle_eq_plain ?_).symm
      rcases hz with htake | hvisits
      · rw [htake, Bool.false_and]
      · rw [h _ hvisits, Bool.and_false])
    (fun z hz hover => by
      simp only [IdleLoop.plain, Bool.or_eq_false_iff, Bool.not_eq_false', Bool.and_eq_true,
        decide_eq_false_iff_not, BitVec.not_le] at hover
      obtain ⟨hwaits, htake, hjumps⟩ := hover
      cases hstays : l.stays with
      | false => exact .inl hstays
      | true =>
        have hvisits := hz.resolve_left (by rw [htake]; exact Bool.noConfusion)
        exact .inr (hvisits.turn (by rw [hjumps, hstays]; rfl) hwaits))
    (.inr .first)

theorem neverSkips_of_near {count : Word} (hnear : l.Near count)
    (hskips : l.skips count = false) : l.NeverSkips count := by
  have hclose (hle : count.toNat ≤ l.nextInterrupt.toNat) :
      l.nextInterrupt.toNat - count.toNat ≤ 3 := by
    by_contra hfar
    have htrue := (skips_iff_of_le hle).mpr ⟨by omega, hnear.ahead hle⟩
    rw [hskips] at htrue
    exact Bool.noConfusion htrue
  intro z hvisits
  have hbetween : z = count ∨ count.toNat ≤ z.toNat ∧ z.toNat < l.nextInterrupt.toNat := by
    induction hvisits with
    | first => exact .inl rfl
    | turn _ _ hwaits ih =>
      have hturn := hnear.turn
      have hroom := hnear.room
      rw [BitVec.lt_def, BitVec.toNat_add] at hwaits
      rw [BitVec.toNat_add]
      rcases ih with rfl | ih
      · rw [Nat.mod_eq_of_lt hturn] at hwaits ⊢
        exact .inr ⟨Nat.le_add_right _ _, hwaits⟩
      · rw [Nat.mod_eq_of_lt (by omega)] at hwaits ⊢
        exact .inr ⟨by omega, hwaits⟩
  rcases hbetween with rfl | ⟨hle, hlt⟩
  · exact hskips
  · have hiff := skips_iff_of_le (l := l) hlt.le
    have hdistance := hclose (by omega)
    cases hz : l.skips z with
    | false => rfl
    | true =>
      have hfar := (hiff.mp hz).1
      omega

section Shortcut

variable (hjumps : l.jumps = true) (hstays : l.stays = true) (hnear : l.Near x.count)
  (htake : x.take = true)

include hjumps hstays hnear htake

theorem not_alike_of_behind (hskips : l.skips x.count = true)
    (hbehind : l.nextInterrupt.toNat < x.count.toNat) : ¬ l.Alike x := by
  intro halike
  have hturn := hnear.turn
  have hcount : (x.count + l.step).toNat = x.count.toNat + l.step.toNat := by
    rw [BitVec.toNat_add, Nat.mod_eq_of_lt hturn]
  have hends := (halike _).mp
    ((plainEnds_of_due (by rw [BitVec.le_def, hcount]; omega)).mpr rfl)
  rw [idleEnds_of_skips htake hskips] at hends
  have hplain : l.idle ⟨l.skipTo x.count, true, true, false⟩ =
      l.plain ⟨l.skipTo x.count, true, true, false⟩ :=
    idle_eq_plain (by simp [skips_skipTo])
  by_cases hdue : l.nextInterrupt ≤ l.skipTo x.count + l.step
  · rw [idleEnds_of_due (by simp [skips_skipTo]) hdue] at hends
    exact skipTo_ne hskips
      ((BitVec.add_left_inj l.step).mp (congrArg Turn.count hends)).symm
  · have hover : (l.idle ⟨l.skipTo x.count, true, true, false⟩).ended = false := by
      rw [hplain]
      simp [IdleLoop.plain, hjumps, hdue]
    rw [IdleLoop.IdleEnds, ends_of_again hover, hplain] at hends
    rw [BitVec.le_def] at hdue
    have hfar := (skips_iff x.count).mp hskips
    rw [BitVec.toNat_sub] at hfar
    have hn := l.nextInterrupt.isLt
    have hx := x.count.isLt
    have hbound := count_le_of_idleEnds hjumps hstays hnear.room hstays
      (by change (l.skipTo x.count + l.step).toNat < _; omega)
      (by change _ - (l.skipTo x.count + l.step).toNat < _; omega) hends
    change (x.count + l.step).toNat ≤ _ at hbound
    omega

theorem alike_iff_of_skips (hskips : l.skips x.count = true)
    (hle : x.count.toNat ≤ l.nextInterrupt.toNat) : l.Alike x ↔ l.Lands x.count := by
  have hfar := ((skips_iff_of_le hle).mp hskips).1
  have hlt : x.count.toNat < l.nextInterrupt.toNat := by omega
  have hplain (y : Turn) := plainEnds_iff (y := y) hjumps hstays hnear.room htake hlt
  by_cases hrest : (l.nextInterrupt.toNat - x.count.toNat) % 4 = 0
  · -- the shortcut stops at the interrupt, one turn too late
    constructor
    · intro halike
      have hends := (halike _).mpr ((idleEnds_exact htake hle hnear.room hskips hrest).mpr rfl)
      have hless := ((hplain _).mp hends).2.2.1
      change (l.nextInterrupt + l.step).toNat < _ at hless
      rw [BitVec.toNat_add, Nat.mod_eq_of_lt hnear.room] at hless
      omega
    · intro hlands
      exact absurd hrest hlands.rest
  · have hto := toNat_skipTo_of_le hle
    have hidle (y : Turn) : l.IdleEnds x y ↔ y.Due ∧
        l.nextInterrupt.toNat ≤ y.count.toNat ∧
        y.count.toNat < l.nextInterrupt.toNat + l.step.toNat ∧
        l.step.toNat ∣ y.count.toNat - (l.skipTo x.count).toNat := by
      rw [idleEnds_short htake hle hnear.room hskips hrest]
      exact plainEnds_iff hjumps hstays hnear.room rfl
        (by change (l.skipTo x.count).toNat < _; omega)
    have hsplit (c : Nat) (hc : l.nextInterrupt.toNat ≤ c) :
        c - x.count.toNat = c - (l.skipTo x.count).toNat + (l.nextInterrupt.toNat -
          x.count.toNat - (l.nextInterrupt.toNat - x.count.toNat) % 4) := by
      omega
    constructor
    · intro halike
      refine ⟨hle, hrest, ?_⟩
      rcases Nat.eq_zero_or_pos l.step.toNat with hzero | hpos
      · exact Or.inl (BitVec.eq_of_toNat_eq hzero)
      · obtain ⟨y, hy⟩ := exists_plainEnds hjumps hstays hnear.room hpos htake hlt
        obtain ⟨-, hreach, -, hdvd⟩ := (hplain y).mp hy
        obtain ⟨-, -, -, hdvd'⟩ := (hidle y).mp ((halike y).mp hy)
        rw [hsplit _ hreach] at hdvd
        exact Or.inr ((Nat.dvd_add_right hdvd').mp hdvd)
    · intro hlands y
      rw [hplain, hidle]
      refine and_congr_right fun _ => and_congr_right fun hreach =>
        and_congr_right fun hless => ?_
      rcases hlands.whole with hzero | hwhole
      · rw [hzero, BitVec.toNat_ofNat] at hless
        omega
      · rw [hsplit _ hreach]
        exact Nat.dvd_add_left hwhole

end Shortcut

theorem alike_iff (hnear : l.Near x.count) :
    l.Alike x ↔ x.take = false ∨ l.NeverSkips x.count ∨
      l.jumps = true ∧ l.stays = true ∧ l.Lands x.count := by
  cases htake : x.take with
  | false => exact iff_of_true (alike_of_not_taken htake) (Or.inl rfl)
  | true =>
    cases hskips : l.skips x.count with
    | false =>
      have hnever := neverSkips_of_near hnear hskips
      exact iff_of_true (alike_of_neverSkips hnever) (.inr (.inl hnever))
    | true =>
      have hsome : ¬ l.NeverSkips x.count := fun hnever =>
        Bool.noConfusion (hskips.symm.trans (hnever _ .first))
      simp only [Bool.true_eq_false, hsome, false_or]
      cases hleaves : l.jumps && l.stays with
      | false =>
        refine iff_of_false (not_alike_of_leaves hleaves htake hskips) ?_
        rintro ⟨hjumps, hstays, -⟩
        simp [hjumps, hstays] at hleaves
      | true =>
        obtain ⟨hjumps, hstays⟩ := (Bool.and_eq_true _ _).mp hleaves
        by_cases hle : x.count.toNat ≤ l.nextInterrupt.toNat
        · simp [alike_iff_of_skips hjumps hstays hnear htake hskips hle, hjumps, hstays]
        · exact iff_of_false
            (not_alike_of_behind hjumps hstays hnear htake hskips (by omega))
            fun hlands => hle hlands.2.2.le

end ParallelN64.R4300
