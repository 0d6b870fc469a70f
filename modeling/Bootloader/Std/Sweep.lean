import Bootloader.Std.Reach
import Mathlib.Data.Nat.Find

/-!
# A sweep around a course of tracks

A circular course is divided into tracks of one width. A sweep goes around it in pieces
towards a finish: while more than a track is left, a piece ends where its track does, and
after that every piece is as long as the one before. A piece that passes the finish has
almost the whole course left again. `Course.comesTo_iff` says from where a sweep hits the finish,
and `Course.within_iff` from where all its pieces stay within a track.
-/

namespace Bootloader.Std

open Relation

section Cover

variable {distance length count : Nat}

/-- Some pieces of one length do not reach a distance, and one more does. -/
theorem exists_cover (positive : 0 < length) (open' : 0 < distance) :
    ∃ count, count * length < distance ∧ distance ≤ (count + 1) * length := by
  refine ⟨(distance - 1) / length, ?_, ?_⟩
  · have below := Nat.div_mul_le_self (distance - 1) length
    omega
  · have above := Nat.lt_mul_of_div_lt (Nat.lt_add_one ((distance - 1) / length)) positive
    omega

/-- One piece reaches what is no longer than it. -/
theorem cover_one (short : distance ≤ length) (less : count * length < distance) :
    count = 0 := by
  cases count with
  | zero => rfl
  | succ count =>
      rw [Nat.succ_mul] at less
      omega

/-- The pieces reach a distance exactly when their length divides it. -/
theorem cover_exact_iff (less : count * length < distance)
    (covers : distance ≤ (count + 1) * length) :
    (count + 1) * length = distance ↔ length ∣ distance := by
  constructor
  · intro same
    exact ⟨count + 1, by rw [← same, Nat.mul_comm]⟩
  · rintro ⟨times, rfl⟩
    rw [Nat.mul_comm length times] at less covers ⊢
    have more := Nat.lt_of_mul_lt_mul_right less
    exact Nat.le_antisymm (Nat.mul_le_mul_right length more) covers

/-- The pieces that reach a distance fit a width when the distance fits what that width
holds of them. -/
theorem cover_fits_iff {width : Nat} (positive : 0 < length) (less : count * length < distance)
    (covers : distance ≤ (count + 1) * length) :
    (count + 1) * length ≤ width ↔ distance ≤ width / length * length := by
  rw [← Nat.le_div_iff_mul_le positive]
  constructor
  · intro few
    exact Nat.le_trans covers (Nat.mul_le_mul_right length few)
  · intro held
    exact Nat.lt_of_mul_lt_mul_right (Nat.lt_of_lt_of_le less held)

end Cover

/-- A course of some tracks, with a finish. -/
structure Course where
  size : Nat
  width : Nat
  finish : Nat
  positive : 0 < width
  inside : finish < size
  wide : 5 * width ≤ size

/-- Where a sweep is, and how long its last piece was. -/
@[ext] structure Sweep where
  position : Nat
  last : Nat

namespace Course

variable (course : Course)

/-- What is left of the sweep. -/
def left (position : Nat) : Nat := (course.finish + course.size - position) % course.size

/-- What is left of the track of a position. -/
def rest (position : Nat) : Nat := course.width - position % course.width

/-- The length of the next piece. -/
def piece (sweep : Sweep) : Nat :=
  if course.width < course.left sweep.position then course.rest sweep.position else sweep.last

/-- The sweep after its next piece. -/
def next (sweep : Sweep) : Sweep :=
  ⟨(sweep.position + course.piece sweep) % course.size, course.piece sweep⟩

/-- A piece of the sweep, while there is something left of it. -/
def Step (sweep after : Sweep) : Prop :=
  course.left sweep.position ≠ 0 ∧ after = course.next sweep

/-- The sweep is at its finish. -/
def Done (sweep : Sweep) : Prop := course.left sweep.position = 0

/-- The next piece, if there is one, stays within its track. -/
def Within (sweep : Sweep) : Prop :=
  course.left sweep.position ≠ 0 →
    sweep.position % course.width + course.piece sweep ≤ course.width

/-- The first position after the wrap, when the sweep gets there from track to track. -/
def entry : Nat := (course.width - course.size % course.width) % course.width

/-- Whether the lap from a position ends at the finish: with a last piece that just fits,
after whole tracks, or after repetitions of the rest of its first track. -/
def LapEnds (position last : Nat) : Prop :=
  if course.finish - position ≤ course.width then course.finish - position = last
  else if course.finish - position - course.rest position ≤ course.width then
    course.rest position ∣ course.finish - position - course.rest position
  else course.width ∣ course.finish

/-- Whether every piece of the lap from a position stays within its track. -/
def LapWithin (position last : Nat) : Prop :=
  if course.finish - position ≤ course.width then position % course.width + last ≤ course.width
  else if course.finish - position - course.rest position ≤ course.width then
    course.finish - position - course.rest position ≤
      course.width / course.rest position * course.rest position
  else True

instance (position last : Nat) : Decidable (course.LapEnds position last) :=
  inferInstanceAs (Decidable (if course.finish - position ≤ course.width then
      course.finish - position = last
    else if course.finish - position - course.rest position ≤ course.width then
      course.rest position ∣ course.finish - position - course.rest position
    else course.width ∣ course.finish))

instance (position last : Nat) : Decidable (course.LapWithin position last) :=
  inferInstanceAs (Decidable (if course.finish - position ≤ course.width then
      position % course.width + last ≤ course.width
    else if course.finish - position - course.rest position ≤ course.width then
      course.finish - position - course.rest position ≤
        course.width / course.rest position * course.rest position
    else True))

variable {course}

section Positions

variable {position last : Nat} {sweep after : Sweep}

theorem step_unique : Relator.RightUnique course.Step :=
  fun _ _ _ first second => first.2.trans second.2.symm

theorem not_step_of_done (sweep after : Sweep) (done : course.Done sweep) :
    ¬ course.Step sweep after := fun step => step.1 done

theorem left_before (before : position ≤ course.finish) :
    course.left position = course.finish - position := by
  have inside := course.inside
  rw [left, Nat.sub_add_comm before, Nat.add_mod_right, Nat.mod_eq_of_lt (by omega)]

theorem left_behind (behind : course.finish < position) (inside : position < course.size) :
    course.left position = course.finish + course.size - position :=
  Nat.mod_eq_of_lt (by omega)

theorem rest_pos (course : Course) (position : Nat) : 0 < course.rest position :=
  Nat.sub_pos_of_lt (Nat.mod_lt _ course.positive)

theorem rest_le (course : Course) (position : Nat) : course.rest position ≤ course.width :=
  Nat.sub_le _ _

/-- The rest of a track leads to the start of one. -/
theorem add_rest_mod (course : Course) (position : Nat) :
    (position + course.rest position) % course.width = 0 := by
  have below := Nat.mod_lt position course.positive
  have parts := Nat.div_add_mod position course.width
  have next : position + course.rest position =
      course.width * (position / course.width + 1) := by
    rw [rest, Nat.mul_add, Nat.mul_one]
    omega
  rw [next, Nat.mul_mod_right]

/-- At the start of a track there is all of it. -/
theorem rest_start (start : position % course.width = 0) : course.rest position = course.width := by
  rw [rest, start, Nat.sub_zero]

theorem piece_cut (far : course.width < course.left sweep.position) :
    course.piece sweep = course.rest sweep.position := if_pos far

theorem piece_stale (near : course.left sweep.position ≤ course.width) :
    course.piece sweep = sweep.last := if_neg (Nat.not_lt.mpr near)

/-- The piece before a lap matters only where no more than a track is left. -/
theorem lapEnds_congr {other : Nat}
    (same : course.finish - position ≤ course.width → last = other) :
    course.LapEnds position last ↔ course.LapEnds position other := by
  by_cases near : course.finish - position ≤ course.width
  · rw [same near]
  · rw [LapEnds, LapEnds, if_neg near, if_neg near]

theorem lapWithin_congr {other : Nat}
    (same : course.finish - position ≤ course.width → last = other) :
    course.LapWithin position last ↔ course.LapWithin position other := by
  by_cases near : course.finish - position ≤ course.width
  · rw [same near]
  · rw [LapWithin, LapWithin, if_neg near, if_neg near]

/-- A sweep that fits its one piece passes the finish only from farther off. -/
theorem beyond_of_passes
    (start : course.finish - position ≤ course.width → course.finish - position = last)
    (passes : ¬ course.LapEnds position last) : course.width < course.finish := by
  by_contra near
  apply passes
  rw [LapEnds, if_pos (by omega)]
  exact start (by omega)

/-- A piece that is cut to its track is a good step. -/
theorem step_cut (far : course.width < course.left position) :
    GoodStep course.Step course.Within ⟨position, last⟩
      ⟨(position + course.rest position) % course.size, course.rest position⟩ := by
  have below := Nat.mod_lt position course.positive
  have cut : course.piece ⟨position, last⟩ = course.rest position := piece_cut far
  refine ⟨⟨Nat.ne_of_gt (Nat.lt_of_le_of_lt (Nat.zero_le _) far), ?_⟩, fun _ => ?_⟩
  · rw [next, cut]
  · rw [cut, rest]
    exact Nat.le_of_eq (Nat.add_sub_of_le (Nat.le_of_lt below))

/-- The same where the piece does not reach the end of the course. -/
theorem step_cut_inside (far : course.width < course.left position)
    (inside : position + course.rest position < course.size) :
    GoodStep course.Step course.Within ⟨position, last⟩
      ⟨position + course.rest position, course.rest position⟩ := by
  have step : GoodStep course.Step course.Within ⟨position, last⟩ _ := step_cut far
  rwa [Nat.mod_eq_of_lt inside] at step

/-- A piece as long as the one before. -/
theorem step_stale (before : position < course.finish)
    (near : course.finish - position ≤ course.width) :
    course.Step ⟨position, last⟩ ⟨(position + last) % course.size, last⟩ := by
  have left := left_before (Nat.le_of_lt before)
  have stale : course.piece ⟨position, last⟩ = last := piece_stale (by rw [left]; exact near)
  refine ⟨?_, ?_⟩
  · rw [left]
    omega
  · rw [next, stale]

/-- A piece as long as the one before stays within the track that has room for it. -/
theorem within_stale_iff (before : position < course.finish)
    (near : course.finish - position ≤ course.width) :
    course.Within ⟨position, last⟩ ↔ position % course.width + last ≤ course.width := by
  have left := left_before (Nat.le_of_lt before)
  have stale : course.piece ⟨position, last⟩ = last := piece_stale (by rw [left]; exact near)
  rw [Within, stale]
  exact ⟨fun within => within (by rw [left]; omega), fun fits _ => fits⟩

end Positions

section Laps

variable {position last : Nat}

/-- Track after track, until no more than one is left. -/
theorem tracks (start : position % course.width = 0) (before : position ≤ course.finish)
    (far : course.width < course.finish - position) :
    ∃ near, near % course.width = 0 ∧ near < course.finish ∧
      course.finish - near ≤ course.width ∧
      ReflTransGen (GoodStep course.Step course.Within) ⟨position, last⟩
        ⟨near, course.width⟩ := by
  have positive := course.positive
  have inside := course.inside
  induction distance : course.finish - position using Nat.strong_induction_on
    generalizing position last with
  | _ distance inductionHypothesis =>
      have left := left_before before
      have step : GoodStep course.Step course.Within ⟨position, last⟩ _ :=
        step_cut_inside (by omega) (by rw [rest_start start]; omega)
      rw [rest_start start] at step
      have start' : (position + course.width) % course.width = 0 := by
        rw [Nat.add_mod_right, start]
      by_cases far' : course.width < course.finish - (position + course.width)
      · obtain ⟨near, aligned, short, close, path⟩ :=
          inductionHypothesis _ (by omega) start' (by omega) far' rfl
        exact ⟨near, aligned, short, close, path.head step⟩
      · exact ⟨position + course.width, start', by omega, by omega, .single step⟩

/-- Pieces of one length, as long as they do not reach the finish. -/
theorem repeats (near : course.finish - position ≤ course.width) {count : Nat}
    (open' : count * last < course.finish - position) :
    ReflTransGen course.Step ⟨position, last⟩ ⟨position + count * last, last⟩ := by
  have inside := course.inside
  induction count with
  | zero => rw [Nat.zero_mul, Nat.add_zero]
  | succ count inductionHypothesis =>
      rw [Nat.succ_mul] at open' ⊢
      have step : course.Step ⟨position + count * last, last⟩ _ :=
        step_stale (by omega) (by omega)
      rw [Nat.mod_eq_of_lt (by omega), Nat.add_assoc] at step
      exact (inductionHypothesis (by omega)).tail step

/-- The pieces up to the one that reaches the finish. -/
theorem repeats_reach (near : course.finish - position ≤ course.width) {count : Nat}
    (open' : count * last < course.finish - position) :
    TransGen course.Step ⟨position, last⟩
      ⟨(position + (count + 1) * last) % course.size, last⟩ := by
  have step : course.Step ⟨position + count * last, last⟩ _ :=
    step_stale (by omega) (by omega)
  rw [Nat.add_assoc, ← Nat.succ_mul] at step
  exact TransGen.tail' (repeats near open') step

/-- Pieces that fit the track together are good steps. -/
theorem repeats_within (near : course.finish - position ≤ course.width) {count : Nat}
    (open' : count * last < course.finish - position)
    (fits : position % course.width + (count + 1) * last ≤ course.width) :
    TransGen (GoodStep course.Step course.Within) ⟨position, last⟩
      ⟨(position + (count + 1) * last) % course.size, last⟩ := by
  have inside := course.inside
  have step {made : Nat} (few : made * last ≤ count * last) :
      GoodStep course.Step course.Within ⟨position + made * last, last⟩
        ⟨(position + (made + 1) * last) % course.size, last⟩ := by
    have place : (position + made * last) % course.width ≤
        position % course.width + made * last := by
      rw [← Nat.mod_add_mod]
      exact Nat.mod_le _ _
    rw [Nat.succ_mul] at fits ⊢
    rw [← Nat.add_assoc]
    have fits' := (@within_stale_iff course (position + made * last) last (by omega)
      (by omega)).mpr (by omega)
    exact ⟨step_stale (by omega) (by omega), fits'⟩
  have path {made : Nat} (few : made * last ≤ count * last) :
      ReflTransGen (GoodStep course.Step course.Within) ⟨position, last⟩
        ⟨position + made * last, last⟩ := by
    induction made with
    | zero => rw [Nat.zero_mul, Nat.add_zero]
    | succ made inductionHypothesis =>
        rw [Nat.succ_mul] at few
        have next := @step made (by omega)
        rw [Nat.mod_eq_of_lt (by rw [Nat.succ_mul]; omega)] at next
        exact (inductionHypothesis (by omega)).tail next
  exact TransGen.tail' (path (Nat.le_refl _)) (step (Nat.le_refl _))

/-- Where the pieces begin at a track, or one of them is enough, they all stay within a
track only together. -/
theorem fits_of_within (near : course.finish - position ≤ course.width)
    (aligned : position % course.width = 0 ∨ course.finish - position ≤ last) {count : Nat}
    (open' : count * last < course.finish - position)
    (within : AllAlong course.Step course.Within ⟨position, last⟩) :
    position % course.width + (count + 1) * last ≤ course.width := by
  have fits := (within_stale_iff (by omega) (by omega)).mp (within _ (repeats near open'))
  rw [Nat.succ_mul]
  rcases aligned with start | one
  · have place : (position + count * last) % course.width = count * last := by
      rw [← Nat.mod_add_mod, start, Nat.zero_add, Nat.mod_eq_of_lt (by omega)]
    rw [place] at fits
    omega
  · rw [cover_one one open', Nat.zero_mul] at fits ⊢
    rw [Nat.add_zero] at fits
    omega

/-- A lap: from a position, the sweep comes to the finish or a little behind it. -/
structure Lap (course : Course) (position last arrival after : Nat) : Prop where
  reaches : course.finish ≤ arrival
  little : arrival < course.finish + course.width
  path : TransGen course.Step ⟨position, last⟩ ⟨arrival % course.size, after⟩
  ends : arrival = course.finish ↔ course.LapEnds position last
  within : course.LapWithin position last →
    TransGen (GoodStep course.Step course.Within) ⟨position, last⟩
      ⟨arrival % course.size, after⟩
  fits : AllAlong course.Step course.Within ⟨position, last⟩ → course.LapWithin position last

/-- The lap that ends with one piece, no shorter than what is left. -/
theorem lap_one (before : position < course.finish)
    (near : course.finish - position ≤ course.width) (one : course.finish - position ≤ last)
    (short : last ≤ course.width) : Lap course position last (position + last) last := by
  have open' : 0 * last < course.finish - position := by
    rw [Nat.zero_mul]
    omega
  have path := repeats_reach near open'
  have fits : AllAlong course.Step course.Within ⟨position, last⟩ → _ :=
    fits_of_within near (Or.inr one) open'
  rw [Nat.zero_add, Nat.one_mul] at path fits
  refine ⟨by omega, by omega, path, ?_, fun within => ?_, fun along => ?_⟩
  · rw [LapEnds, if_pos near]
    omega
  · rw [LapWithin, if_pos near] at within
    have good := repeats_within near open' (by rwa [Nat.zero_add, Nat.one_mul])
    rwa [Nat.zero_add, Nat.one_mul] at good
  · rw [LapWithin, if_pos near]
    exact fits along

/-- The lap whose last piece cut to a track leads to no more than a track before the
finish. -/
theorem lap_first (far : course.width < course.finish - position)
    (near : course.finish - position - course.rest position ≤ course.width) :
    ∃ arrival, Lap course position last arrival (course.rest position) := by
  have inside := course.inside
  have positive := rest_pos course position
  have short := rest_le course position
  have start := add_rest_mod course position
  have step : GoodStep course.Step course.Within ⟨position, last⟩ _ :=
    step_cut_inside (by rw [left_before (by omega)]; exact far) (by omega)
  rw [Nat.sub_sub] at near
  obtain ⟨count, open', covers⟩ := @exists_cover
    (course.finish - (position + course.rest position)) _ positive (by omega)
  have exact' := cover_exact_iff open' covers
  have fits' := @cover_fits_iff _ _ _ course.width positive open' covers
  have tight : (count + 1) * course.rest position <
      course.finish - (position + course.rest position) + course.rest position := by
    rw [Nat.succ_mul]
    omega
  refine ⟨position + course.rest position + (count + 1) * course.rest position, by omega,
    by omega, .head step.1 (repeats_reach near open'), ?_, fun within => ?_, fun along => ?_⟩
  · rw [LapEnds, if_neg (Nat.not_le.mpr far), Nat.sub_sub, if_pos near, ← exact']
    omega
  · rw [LapWithin, if_neg (Nat.not_le.mpr far), Nat.sub_sub, if_pos near, ← fits'] at within
    exact .head step (repeats_within near open' (by rwa [start, Nat.zero_add]))
  · rw [LapWithin, if_neg (Nat.not_le.mpr far), Nat.sub_sub, if_pos near, ← fits']
    have fits := fits_of_within near (Or.inl start) open' (along.of_path (.single step.1))
    rwa [start, Nat.zero_add] at fits

/-- The lap over whole tracks, which arrives at the start of one. -/
theorem lap_tracks
    (far : course.width < course.finish - position - course.rest position) :
    ∃ arrival, arrival % course.width = 0 ∧ Lap course position last arrival course.width := by
  have inside := course.inside
  have positive := course.positive
  have step : GoodStep course.Step course.Within ⟨position, last⟩ _ :=
    step_cut_inside (by rw [left_before (by omega)]; omega) (by omega)
  obtain ⟨near, start, before, close, path⟩ :=
    @tracks course _ (course.rest position) (add_rest_mod course position) (by omega) (by omega)
  obtain ⟨reaches, little, path', ends, within, fits⟩ :=
    lap_one before close close (Nat.le_refl course.width)
  have good : course.LapWithin near course.width := by
    rw [LapWithin, if_pos close, start, Nat.zero_add]
  have first := path.head step
  refine ⟨near + course.width, by rw [Nat.add_mod_right, start], reaches, little,
    .trans_right (GoodStep.path first) path', ?_, fun _ => .trans_right first (within good),
    fun _ => ?_⟩
  · rw [ends, LapEnds, if_pos close, LapEnds, if_neg (by omega), if_neg (by omega)]
    obtain ⟨times, tracked⟩ := Nat.dvd_of_mod_eq_zero start
    constructor
    · intro whole
      exact ⟨times + 1, by rw [Nat.mul_add, Nat.mul_one, ← tracked]; omega⟩
    · intro whole
      have rest := Nat.le_of_dvd (by omega) (Nat.dvd_sub whole ⟨times, tracked⟩)
      omega
  · rw [LapWithin, if_neg (by omega), if_neg (by omega)]
    trivial

/-- Every sweep makes a lap from before the finish. -/
theorem exists_lap (before : position < course.finish)
    (start : course.finish - position ≤ course.width →
      course.finish - position ≤ last ∧ last ≤ course.width) :
    ∃ arrival after, Lap course position last arrival after := by
  by_cases near : course.finish - position ≤ course.width
  · obtain ⟨one, short⟩ := start near
    exact ⟨_, _, lap_one before near one short⟩
  · by_cases near' : course.finish - position - course.rest position ≤ course.width
    · obtain ⟨arrival, lap⟩ := lap_first (Nat.not_le.mp near) near'
      exact ⟨arrival, _, lap⟩
    · obtain ⟨arrival, _, lap⟩ := lap_tracks (Nat.not_le.mp near')
      exact ⟨arrival, _, lap⟩

/-- The track that reaches the end of the course leads to the entry. -/
theorem wrap_entry (start : position % course.width = 0) (inside : position < course.size)
    (reaches : course.size ≤ position + course.width) :
    (position + course.width) % course.size = course.entry := by
  have wide := course.wide
  have positive := course.positive
  obtain ⟨times, tracked⟩ := Nat.dvd_of_mod_eq_zero start
  obtain ⟨part, size⟩ := Nat.exists_eq_add_of_le (Nat.le_of_lt inside)
  have wrapped : (position + course.width) % course.size = course.width - part := by
    rw [Nat.mod_eq_sub_mod reaches, Nat.mod_eq_of_lt (by omega)]
    omega
  have place : course.size % course.width = part % course.width := by
    rw [size, tracked, Nat.mul_add_mod]
  rw [wrapped, entry, place]
  rcases Nat.lt_or_ge part course.width with less | whole
  · rw [Nat.mod_eq_of_lt less, Nat.mod_eq_of_lt (by omega)]
  · have same : part = course.width := by omega
    rw [same, Nat.mod_self, Nat.sub_zero, Nat.mod_self, Nat.sub_self]

/-- From the start of a track behind the finish, track after track leads to the entry. -/
theorem round_tracks (start : position % course.width = 0) (behind : course.finish < position)
    (inside : position < course.size) (beyond : course.width < course.finish) :
    ReflTransGen (GoodStep course.Step course.Within) ⟨position, last⟩
      ⟨course.entry, course.width⟩ := by
  have positive := course.positive
  induction distance : course.size - position using Nat.strong_induction_on
    generalizing position last with
  | _ distance inductionHypothesis =>
      have left := left_behind behind inside
      have step : GoodStep course.Step course.Within ⟨position, last⟩ _ :=
        step_cut (by omega)
      rw [rest_start start] at step
      by_cases more : position + course.width < course.size
      · rw [Nat.mod_eq_of_lt more] at step
        have start' : (position + course.width) % course.width = 0 := by
          rw [Nat.add_mod_right, start]
        exact .head step (inductionHypothesis _ (by omega) start' (by omega) more rfl)
      · rw [wrap_entry start inside (by omega)] at step
        exact .single step

theorem entry_lt (course : Course) : course.entry < course.width :=
  Nat.mod_lt _ course.positive

/-- Whole tracks from a far position on hit the finish, or lead around to the entry. -/
theorem far_round (far : course.width < course.finish - position - course.rest position) :
    (course.width ∣ course.finish ∧ ∃ after,
      ReflTransGen (GoodStep course.Step course.Within) ⟨position, last⟩
        ⟨course.finish, after⟩) ∨
      ReflTransGen (GoodStep course.Step course.Within) ⟨position, last⟩
        ⟨course.entry, course.width⟩ := by
  have inside := course.inside
  obtain ⟨arrival, start, lap⟩ := @lap_tracks course position last far
  have path : ReflTransGen (GoodStep course.Step course.Within) ⟨position, last⟩
      ⟨arrival % course.size, course.width⟩ := by
    refine (lap.within ?_).to_reflTransGen
    rw [LapWithin, if_neg (by omega), if_neg (by omega)]
    trivial
  by_cases hit : arrival = course.finish
  · left
    have ends := lap.ends.mp hit
    rw [LapEnds, if_neg (by omega), if_neg (by omega)] at ends
    rw [hit, Nat.mod_eq_of_lt inside] at path
    exact ⟨ends, _, path⟩
  · right
    have reaches := lap.reaches
    have little := lap.little
    by_cases more : arrival < course.size
    · rw [Nat.mod_eq_of_lt more] at path
      exact path.trans (round_tracks start (by omega) more (by omega))
    · have track : (arrival - course.width) % course.width = 0 := by
        rw [← Nat.mod_eq_sub_mod (by omega), start]
      have wrapped := wrap_entry track (by omega) (by omega)
      rw [Nat.sub_add_cancel (by omega)] at wrapped
      rwa [wrapped] at path

/-- Behind the finish, a sweep goes on within the tracks to the entry, or it hits the
finish after all, which then also the lap from the entry does. -/
def Rounds (course : Course) (sweep : Sweep) : Prop :=
  (course.LapEnds course.entry course.width ∧ course.LapWithin course.entry course.width ∧
    ∃ after, ReflTransGen (GoodStep course.Step course.Within) sweep ⟨course.finish, after⟩) ∨
    ReflTransGen (GoodStep course.Step course.Within) sweep ⟨course.entry, course.width⟩

theorem Rounds.of_path {sweep next : Sweep}
    (path : ReflTransGen (GoodStep course.Step course.Within) sweep next)
    (rounds : course.Rounds next) : course.Rounds sweep := by
  obtain ⟨ends, within, after, further⟩ | further := rounds
  · exact Or.inl ⟨ends, within, after, path.trans further⟩
  · exact Or.inr (path.trans further)

/-- Where the finish is near the end of the course, all laps are over whole tracks. -/
theorem rounds_late (low : position < course.width)
    (late : course.size ≤ course.finish + 2 * course.width) :
    course.Rounds ⟨position, last⟩ := by
  have wide := course.wide
  have entry := entry_lt course
  have short := rest_le course position
  have short' := rest_le course course.entry
  rcases @far_round course position last (by omega) with ⟨whole, after, path⟩ | path
  · refine Or.inl ⟨?_, ?_, after, path⟩
    · rw [LapEnds, if_neg (by omega), if_neg (by omega)]
      exact whole
    · rw [LapWithin, if_neg (by omega), if_neg (by omega)]
      trivial
  · exact Or.inr path

/-- A lap that passes the finish leads around. -/
theorem Lap.round {arrival after : Nat} (lap : Lap course position last arrival after)
    (passes : ¬ course.LapEnds position last) (beyond : course.width < course.finish) :
    course.Rounds ⟨arrival % course.size, after⟩ := by
  have inside := course.inside
  have wide := course.wide
  have reaches := lap.reaches
  have little := lap.little
  have other := mt lap.ends.mp passes
  have short := rest_le course arrival
  by_cases more : arrival < course.size
  · have left := @left_behind course arrival (by omega) more
    have step : GoodStep course.Step course.Within ⟨arrival, after⟩ _ := step_cut (by omega)
    rw [Nat.mod_eq_of_lt more]
    refine .of_path (.single step) ?_
    by_cases room : arrival + course.rest arrival < course.size
    · rw [Nat.mod_eq_of_lt room]
      exact Or.inr (round_tracks (add_rest_mod course arrival) (by omega) room beyond)
    · rw [Nat.mod_eq_sub_mod (by omega), Nat.mod_eq_of_lt (by omega)]
      exact rounds_late (by omega) (by omega)
  · rw [Nat.mod_eq_sub_mod (by omega), Nat.mod_eq_of_lt (by omega)]
    exact rounds_late (by omega) (by omega)

end Laps

section Sweeps

variable {position last : Nat}

/-- A lap can be made from the entry. -/
theorem exists_lap_entry (beyond : course.width < course.finish) :
    ∃ arrival after, Lap course course.entry course.width arrival after := by
  have entry := entry_lt course
  exact exists_lap (by omega) fun near => ⟨near, Nat.le_refl _⟩

theorem done_finish (last : Nat) : course.Done ⟨course.finish, last⟩ := by
  rw [Done, left_before (Nat.le_refl _), Nat.sub_self]

/-- At the finish there are no more pieces that could cross a track. -/
theorem allAlong_of_done {sweep : Sweep} (done : course.Done sweep) :
    AllAlong course.Step course.Within sweep := by
  intro next path
  obtain same | ⟨later, step, _⟩ := path.cases_head
  · exact same ▸ fun more => absurd done more
  · exact absurd step (not_step_of_done sweep later done)

theorem Lap.done {arrival after : Nat} (lap : Lap course position last arrival after)
    (ends : course.LapEnds position last) : course.Done ⟨arrival % course.size, after⟩ := by
  rw [lap.ends.mpr ends, Nat.mod_eq_of_lt course.inside]
  exact done_finish after

/-- A lap that ends at the finish ends the sweep. -/
theorem Lap.comesTo {arrival after : Nat} (lap : Lap course position last arrival after)
    (ends : course.LapEnds position last) : ComesTo course.Step course.Done ⟨position, last⟩ :=
  ⟨_, lap.path.to_reflTransGen, lap.done ends⟩

/-- The sweep that goes around comes to its finish when the lap from the entry does. -/
theorem Rounds.comesTo_iff {sweep : Sweep} (rounds : course.Rounds sweep)
    (beyond : course.width < course.finish) :
    ComesTo course.Step course.Done sweep ↔ course.LapEnds course.entry course.width := by
  obtain ⟨ends, _, after, path⟩ | path := rounds
  · exact iff_of_true ⟨_, GoodStep.path path, done_finish after⟩ ends
  · obtain ⟨arrival, after, lap⟩ := exists_lap_entry beyond
    rw [comesTo_iff_of_path step_unique not_step_of_done (GoodStep.path path)]
    refine ⟨fun comes => ?_, lap.comesTo⟩
    by_contra passes
    obtain ⟨ends, _⟩ | around := lap.round passes beyond
    · exact passes ends
    · exact not_comesTo_of_cycle step_unique not_step_of_done
        (lap.path.trans_left (GoodStep.path around)) comes

/-- The sweep that goes around stays within the tracks when the lap from the entry does. -/
theorem Rounds.within_iff {sweep : Sweep} (rounds : course.Rounds sweep)
    (beyond : course.width < course.finish) :
    AllAlong course.Step course.Within sweep ↔ course.LapWithin course.entry course.width := by
  obtain ⟨_, within, after, path⟩ | path := rounds
  · rw [allAlong_iff_of_path step_unique path]
    exact iff_of_true (allAlong_of_done (done_finish after)) within
  · obtain ⟨arrival, after, lap⟩ := exists_lap_entry beyond
    rw [allAlong_iff_of_path step_unique path]
    refine ⟨lap.fits, fun within => ?_⟩
    have first := lap.within within
    by_cases ends : course.LapEnds course.entry course.width
    · rw [allAlong_iff_of_path step_unique first.to_reflTransGen]
      exact allAlong_of_done (lap.done ends)
    · obtain ⟨ends', _⟩ | around := lap.round ends beyond
      · exact absurd ends' ends
      · exact allAlong_of_cycle step_unique (first.trans_left around)

/-- A sweep hits the finish in its first lap, in the lap from the entry, or never. -/
theorem comesTo_iff (before : position ≤ course.finish)
    (start : course.finish - position ≤ course.width → course.finish - position = last) :
    ComesTo course.Step course.Done ⟨position, last⟩ ↔
      course.LapEnds position last ∨ course.LapEnds course.entry course.width := by
  rcases Nat.lt_or_eq_of_le before with short | here
  · obtain ⟨arrival, after, lap⟩ := exists_lap short fun near =>
      ⟨Nat.le_of_eq (start near), start near ▸ near⟩
    by_cases ends : course.LapEnds position last
    · exact iff_of_true (lap.comesTo ends) (Or.inl ends)
    · have beyond := beyond_of_passes start ends
      rw [comesTo_iff_of_path step_unique not_step_of_done lap.path.to_reflTransGen,
        or_iff_right ends]
      exact (lap.round ends beyond).comesTo_iff beyond
  · have ends : course.LapEnds position last := by
      rw [LapEnds, if_pos (by omega)]
      exact start (by omega)
    exact iff_of_true ⟨_, .refl, here ▸ done_finish last⟩ (Or.inl ends)

/-- All pieces of a sweep stay within a track when those of its first lap do, and those of
the lap from the entry if it gets there. -/
theorem within_iff (before : position < course.finish)
    (start : course.finish - position ≤ course.width → course.finish - position = last) :
    AllAlong course.Step course.Within ⟨position, last⟩ ↔
      course.LapWithin position last ∧
        (course.LapEnds position last ∨ course.LapWithin course.entry course.width) := by
  obtain ⟨arrival, after, lap⟩ := exists_lap before fun near =>
    ⟨Nat.le_of_eq (start near), start near ▸ near⟩
  by_cases within : course.LapWithin position last
  · rw [allAlong_iff_of_path step_unique (lap.within within).to_reflTransGen,
      and_iff_right within]
    by_cases ends : course.LapEnds position last
    · exact iff_of_true (allAlong_of_done (lap.done ends)) (Or.inl ends)
    · have beyond := beyond_of_passes start ends
      rw [or_iff_right ends]
      exact (lap.round ends beyond).within_iff beyond
  · exact iff_of_false (fun along => within (lap.fits along)) fun both => within both.1

end Sweeps

/-- Ten positions a track: the sweep from 4 to 19 cuts a piece of six to the first track,
and two such pieces do not fit the next one; that from 6 to 19 passes its finish. -/
example : ¬ (Course.mk 1000 10 19 (by decide) (by decide) (by decide)).LapWithin 4 0 ∧
    (Course.mk 1000 10 19 (by decide) (by decide) (by decide)).LapWithin 7 0 ∧
    ¬ (Course.mk 1000 10 19 (by decide) (by decide) (by decide)).LapEnds 6 0 := by
  simp [LapWithin, LapEnds, rest]

end Course

end Bootloader.Std
