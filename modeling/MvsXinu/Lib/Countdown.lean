import Mathlib.Data.List.TakeWhile
import Mathlib.Data.List.Nodup

/-!
# Countdowns

Timers in the order in which they expire, each under a key and with the time at which it
expires. A timer is placed behind those that expire no later, struck out under its key, and
taken off the front of the list when its time has come.
-/

namespace MvsXinu.Countdown

set_option autoImplicit false

variable {Key : Type*}

abbrev Timers (Key : Type*) := List (Key × Int)

def place (key : Key) (time : Int) (timers : Timers Key) : Timers Key :=
  timers.takeWhile (fun timer => timer.2 ≤ time) ++
    (key, time) :: timers.dropWhile (fun timer => timer.2 ≤ time)

def strike [DecidableEq Key] (key : Key) (timers : Timers Key) : Timers Key :=
  timers.eraseP fun timer => timer.1 = key

def expired (now : Int) (timers : Timers Key) : Timers Key :=
  timers.takeWhile fun timer => timer.2 ≤ now

def pending (now : Int) (timers : Timers Key) : Timers Key :=
  timers.dropWhile fun timer => timer.2 ≤ now

/-- The times do not fall, from a base on. -/
def Rising (base : Int) (timers : Timers Key) : Prop :=
  (base :: timers.map Prod.snd).Pairwise (· ≤ ·)

def Single (timers : Timers Key) : Prop := (timers.map Prod.fst).Nodup

theorem rising_cons {base : Int} {timer : Key × Int} {rest : Timers Key} :
    Rising base (timer :: rest) ↔ base ≤ timer.2 ∧ Rising timer.2 rest := by
  simp only [Rising, List.map_cons, List.pairwise_cons, List.mem_cons, forall_eq_or_imp]
  constructor
  · rintro ⟨⟨first, _⟩, ordered⟩
    exact ⟨first, ordered⟩
  · rintro ⟨first, above, ordered⟩
    exact ⟨⟨first, fun later member => Int.le_trans first (above later member)⟩, above, ordered⟩

theorem Rising.le {base : Int} {timers : Timers Key} (rising : Rising base timers)
    {timer : Key × Int} (member : timer ∈ timers) : base ≤ timer.2 :=
  List.rel_of_pairwise_cons rising (List.mem_map_of_mem member)

theorem Rising.sublist {base : Int} {part timers : Timers Key} (rising : Rising base timers)
    (sublist : part.Sublist timers) : Rising base part :=
  List.Pairwise.sublist ((sublist.map Prod.snd).cons_cons base) rising

/-! ## Placing -/

theorem place_perm (key : Key) (time : Int) (timers : Timers Key) :
    (place key time timers).Perm ((key, time) :: timers) := by
  have middle : (place key time timers).Perm ((key, time) ::
      ((timers.takeWhile fun timer => timer.2 ≤ time) ++
        timers.dropWhile fun timer => timer.2 ≤ time)) := List.perm_middle
  rwa [List.takeWhile_append_dropWhile] at middle

theorem Single.place {key : Key} (time : Int) {timers : Timers Key} (single : Single timers)
    (absent : key ∉ timers.map Prod.fst) : Single (place key time timers) := by
  have keys := (place_perm key time timers).map Prod.fst
  rw [Single, keys.nodup_iff, List.map_cons, List.nodup_cons]
  exact ⟨absent, single⟩

theorem place_cons (key : Key) (time : Int) (timer : Key × Int) (rest : Timers Key) :
    place key time (timer :: rest) =
      if timer.2 ≤ time then timer :: place key time rest else (key, time) :: timer :: rest := by
  by_cases earlier : timer.2 ≤ time <;> simp [place, earlier]

theorem Rising.place {base : Int} (key : Key) {time : Int} {timers : Timers Key}
    (rising : Rising base timers) (later : base ≤ time) :
    Rising base (place key time timers) := by
  induction timers generalizing base with
  | nil => simpa [Countdown.place, Rising] using later
  | cons timer rest ih =>
      rw [rising_cons] at rising
      rw [place_cons]
      split
      · rename_i earlier
        exact rising_cons.mpr ⟨rising.1, ih rising.2 earlier⟩
      · rename_i behind
        have first : time ≤ timer.2 := by omega
        exact rising_cons.mpr ⟨later, rising_cons.mpr ⟨first, rising.2⟩⟩

/-! ## Striking out -/

section Strike

variable [DecidableEq Key]

theorem mem_strike {key : Key} {timers : Timers Key} (single : Single timers)
    (timer : Key × Int) : timer ∈ strike key timers ↔ timer ∈ timers ∧ timer.1 ≠ key := by
  induction timers with
  | nil => simp [strike]
  | cons first rest ih =>
      rw [Single, List.map_cons, List.nodup_cons] at single
      by_cases met : first.1 = key
      · rw [strike, List.eraseP_cons_of_pos (by simpa using met), List.mem_cons]
        constructor
        · intro member
          refine ⟨Or.inr member, ?_⟩
          intro same
          rw [met, ← same] at single
          exact single.1 (List.mem_map_of_mem member)
        · rintro ⟨rfl | member, different⟩
          · exact absurd met different
          · exact member
      · rw [strike, List.eraseP_cons_of_neg (by simpa using met), List.mem_cons, List.mem_cons]
        rw [strike] at ih
        rw [ih single.2]
        constructor
        · rintro (rfl | ⟨member, different⟩)
          · exact ⟨Or.inl rfl, met⟩
          · exact ⟨Or.inr member, different⟩
        · rintro ⟨rfl | member, different⟩
          · exact Or.inl rfl
          · exact Or.inr ⟨member, different⟩

theorem strike_sublist (key : Key) (timers : Timers Key) : (strike key timers).Sublist timers :=
  List.eraseP_sublist

theorem Single.strike (key : Key) {timers : Timers Key} (single : Single timers) :
    Single (strike key timers) :=
  List.Nodup.sublist ((strike_sublist key timers).map Prod.fst) single

theorem not_mem_strike {key : Key} {timers : Timers Key} (single : Single timers) :
    key ∉ (Countdown.strike key timers).map Prod.fst := by
  intro member
  obtain ⟨timer, found, same⟩ := List.mem_map.mp member
  exact ((mem_strike single timer).mp found).2 same

end Strike

/-! ## Expiry -/

/-- Exactly the timers whose time has come are taken. -/
theorem mem_expired {base now : Int} {timers : Timers Key} (rising : Rising base timers)
    (timer : Key × Int) :
    (timer ∈ expired now timers ↔ timer ∈ timers ∧ timer.2 ≤ now) ∧
      (timer ∈ pending now timers ↔ timer ∈ timers ∧ now < timer.2) := by
  induction timers generalizing base with
  | nil => simp [expired, pending]
  | cons first rest ih =>
      rw [rising_cons] at rising
      obtain ⟨taken, left⟩ := ih rising.2
      by_cases due : first.2 ≤ now
      · rw [expired, pending, List.takeWhile_cons_of_pos (by simpa using due),
          List.dropWhile_cons_of_pos (by simpa using due), List.mem_cons, List.mem_cons]
        rw [expired] at taken
        rw [pending] at left
        rw [taken, left]
        constructor
        · constructor
          · rintro (rfl | ⟨member, early⟩)
            · exact ⟨Or.inl rfl, due⟩
            · exact ⟨Or.inr member, early⟩
          · rintro ⟨rfl | member, early⟩
            · exact Or.inl rfl
            · exact Or.inr ⟨member, early⟩
        · constructor
          · rintro ⟨member, late⟩
            exact ⟨Or.inr member, late⟩
          · rintro ⟨rfl | member, late⟩
            · omega
            · exact ⟨member, late⟩
      · rw [expired, pending, List.takeWhile_cons_of_neg (by simpa using due),
          List.dropWhile_cons_of_neg (by simpa using due)]
        have late : timer ∈ first :: rest → now < timer.2 := by
          intro member
          rcases List.mem_cons.mp member with rfl | behind
          · omega
          · have above := rising.2.le behind
            omega
        constructor
        · constructor
          · intro member
            cases member
          · rintro ⟨member, early⟩
            have bound := late member
            omega
        · exact ⟨fun member => ⟨member, late member⟩, fun member => member.1⟩

theorem Rising.pending {base : Int} (now : Int) {timers : Timers Key}
    (rising : Rising base timers) : Rising now (pending now timers) := by
  have ordered := rising.sublist (List.dropWhile_sublist fun timer => timer.2 ≤ now)
  rw [Rising, List.pairwise_cons] at ordered ⊢
  refine ⟨?_, ordered.2⟩
  intro time member
  obtain ⟨timer, found, rfl⟩ := List.mem_map.mp member
  have late := ((mem_expired rising timer).2.mp found).2
  omega

theorem expired_sublist (now : Int) (timers : Timers Key) : (expired now timers).Sublist timers :=
  List.takeWhile_sublist _

theorem pending_sublist (now : Int) (timers : Timers Key) : (pending now timers).Sublist timers :=
  List.dropWhile_sublist _

end MvsXinu.Countdown
