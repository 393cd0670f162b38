import Bomberrobots.Library.Lists
import Bomberrobots.Server.Engine

/-! # The turn log

Events are appended to one turn of the log. As long as that is the last turn, the
events of the whole game grow at their end.
-/

namespace Bomberrobots

def Event.isBombPlaced : Event → Bool
  | .bombPlaced .. => true
  | _ => false

def Event.robotsDestroyed : Event → List PlayerId
  | .bombExploded _ robotsDestroyed _ => robotsDestroyed
  | _ => []

def Event.placedBomb : Event → Option BombId
  | .bombPlaced id _ => some id
  | _ => none

def Event.explodedBomb : Event → Option BombId
  | .bombExploded id _ _ => some id
  | _ => none

namespace GameEngine

def logEvents (turns : List TurnInfo) (k : Nat) (events : List Event) : List TurnInfo :=
  turns.modify k fun info => { info with events := info.events ++ events }

def allEvents (turns : List TurnInfo) : List Event := turns.flatMap TurnInfo.events

def bombsPlaced (turns : List TurnInfo) : ℕ := (allEvents turns).countP Event.isBombPlaced

/-- Every turn carries its index as its number. -/
def Numbered (turns : List TurnInfo) : Prop :=
  ∀ (k : ℕ) (info : TurnInfo), turns[k]? = some info → info.turn.toNat = k

variable {turns : List TurnInfo} {k : Nat} {events events' : List Event} {info : TurnInfo}

@[simp] theorem length_logEvents : (logEvents turns k events).length = turns.length :=
  List.length_modify ..

@[simp] theorem logEvents_nil : logEvents turns k [] = turns := by
  simp only [logEvents, List.append_nil]
  exact List.modify_id ..

theorem logEvents_append :
    logEvents turns k (events ++ events') = logEvents (logEvents turns k events) k events' := by
  simp only [logEvents, List.modify_modify_eq]
  congr 1
  funext info
  simp

theorem logEvents_concat (h : k = turns.length) :
    logEvents (turns ++ [info]) k events =
      turns ++ [{ info with events := info.events ++ events }] := by
  subst h
  induction turns with
  | nil => rfl
  | cons turn turns ih => simpa [logEvents, List.modify_succ_cons] using ih

theorem getElem?_logEvents_of_ne {j : ℕ} (h : k ≠ j) :
    (logEvents turns k events)[j]? = turns[j]? :=
  List.getElem?_modify_ne _ _ h

theorem take_logEvents : (logEvents turns k events).take k = turns.take k := by
  apply List.ext_getElem?
  intro j
  rw [List.getElem?_take, List.getElem?_take]
  split
  · exact getElem?_logEvents_of_ne (by omega)
  · rfl

theorem exists_getElem?_of_logEvents {j : ℕ} (h : (logEvents turns k events)[j]? = some info) :
    ∃ info', turns[j]? = some info' ∧ info.turn = info'.turn := by
  rw [logEvents, List.getElem?_modify] at h
  obtain ⟨info', hi, rfl⟩ := Option.map_eq_some_iff.mp h
  refine ⟨info', hi, ?_⟩
  split <;> rfl

theorem Numbered.logEvents (h : Numbered turns) : Numbered (logEvents turns k events) := by
  intro j info hj
  obtain ⟨info', hj', ht⟩ := exists_getElem?_of_logEvents hj
  rw [ht]
  exact h j info' hj'

theorem Numbered.concat (h : Numbered turns) (hi : info.turn.toNat = turns.length) :
    Numbered (turns ++ [info]) := by
  intro j info' hj
  rcases Nat.lt_trichotomy j turns.length with hlt | rfl | hgt
  · rw [List.getElem?_append_left hlt] at hj
    exact h j info' hj
  · simp only [List.getElem?_concat_length, Option.some.injEq] at hj
    exact hj ▸ hi
  · rw [List.getElem?_eq_none (by simp; omega)] at hj
    cases hj

@[simp] theorem allEvents_nil : allEvents [] = [] := rfl

@[simp] theorem allEvents_cons : allEvents (info :: turns) = info.events ++ allEvents turns := rfl

@[simp] theorem allEvents_concat :
    allEvents (turns ++ [info]) = allEvents turns ++ info.events := by
  simp [allEvents]

theorem allEvents_logEvents (h : k + 1 = turns.length) :
    allEvents (logEvents turns k events) = allEvents turns ++ events := by
  induction turns using List.reverseRecOn with
  | nil => simp at h
  | append_singleton turns info =>
    rw [logEvents_concat (by simpa using h), allEvents_concat, allEvents_concat, List.append_assoc]

theorem bombsPlaced_logEvents (h : k + 1 = turns.length) :
    bombsPlaced (logEvents turns k events) =
      bombsPlaced turns + events.countP Event.isBombPlaced := by
  rw [bombsPlaced, allEvents_logEvents h, List.countP_append, bombsPlaced]

variable {t t' : ℕ} {event event' : Event}

def InTurn (turns : List TurnInfo) (t : ℕ) (event : Event) : Prop :=
  ∃ info, turns[t]? = some info ∧ event ∈ info.events

theorem InTurn.lt (h : InTurn turns t event) : t < turns.length := by
  obtain ⟨info, hi, -⟩ := h
  exact (List.getElem?_eq_some_iff.mp hi).1

theorem InTurn.mem (h : InTurn turns t event) : event ∈ allEvents turns := by
  obtain ⟨info, hi, he⟩ := h
  exact List.mem_flatMap.mpr ⟨info, List.mem_of_getElem? hi, he⟩

theorem mem_allEvents : event ∈ allEvents turns ↔ ∃ t, InTurn turns t event := by
  constructor
  · intro h
    obtain ⟨info, hi, he⟩ := List.mem_flatMap.mp h
    obtain ⟨t, ht⟩ := List.mem_iff_getElem?.mp hi
    exact ⟨t, info, ht, he⟩
  · rintro ⟨t, h⟩
    exact h.mem

theorem inTurn_cons_zero : InTurn (info :: turns) 0 event ↔ event ∈ info.events := by
  simp [InTurn]

theorem inTurn_cons_succ : InTurn (info :: turns) (t + 1) event ↔ InTurn turns t event := by
  simp [InTurn]

theorem inTurn_logEvents (h : k < turns.length) :
    InTurn (logEvents turns k events) t event ↔ InTurn turns t event ∨ t = k ∧ event ∈ events := by
  by_cases ht : t = k
  · subst ht
    simp [InTurn, logEvents, h]
  · have hne : (logEvents turns k events)[t]? = turns[t]? := getElem?_logEvents_of_ne (Ne.symm ht)
    simp [InTurn, hne, ht]

theorem mem_allEvents_logEvents (h : event ∈ allEvents (logEvents turns k events)) :
    event ∈ allEvents turns ∨ event ∈ events := by
  by_cases hk : k < turns.length
  · obtain ⟨t, ht⟩ := mem_allEvents.mp h
    rcases (inTurn_logEvents hk).mp ht with ht | ⟨-, he⟩
    · exact .inl ht.mem
    · exact .inr he
  · rw [logEvents, List.modify_eq_self (Nat.le_of_not_lt hk)] at h
    exact .inl h

theorem inTurn_concat : InTurn (turns ++ [info]) t event ↔
    InTurn turns t event ∨ t = turns.length ∧ event ∈ info.events := by
  rcases Nat.lt_trichotomy t turns.length with hlt | rfl | hgt
  · simp [InTurn, List.getElem?_append_left hlt, hlt.ne]
  · simp [InTurn]
  · have hnone : (turns ++ [info])[t]? = none := List.getElem?_eq_none (by simp; omega)
    have hnone' : turns[t]? = none := List.getElem?_eq_none (by omega)
    simp [InTurn, hnone, hnone', hgt.ne']

theorem InTurn.unique {κ : Type} {f : Event → Option κ} {key : κ} (h : InTurn turns t event)
    (h' : InTurn turns t' event') (hf : f event = some key) (hf' : f event' = some key)
    (hnd : ((allEvents turns).filterMap f).Nodup) : t = t' ∧ event = event' := by
  refine ⟨?_, List.eq_of_nodup_filterMap hnd h.mem h'.mem hf hf'⟩
  have hkey : ∀ {l : List Event} {event : Event}, event ∈ l → f event = some key →
      key ∈ l.filterMap f := fun he hf => List.mem_filterMap.mpr ⟨_, he, hf⟩
  induction turns generalizing t t' with
  | nil => exact absurd h.lt (Nat.not_lt_zero t)
  | cons info turns ih =>
    rw [allEvents_cons, List.filterMap_append, List.nodup_append] at hnd
    obtain ⟨-, hrest, hdis⟩ := hnd
    cases t with
    | zero =>
      cases t' with
      | zero => rfl
      | succ t' =>
        rw [inTurn_cons_zero] at h
        rw [inTurn_cons_succ] at h'
        exact absurd rfl (hdis _ (hkey h hf) _ (hkey h'.mem hf'))
    | succ t =>
      rw [inTurn_cons_succ] at h
      cases t' with
      | zero =>
        rw [inTurn_cons_zero] at h'
        exact absurd rfl (hdis _ (hkey h' hf') _ (hkey h.mem hf))
      | succ t' => rw [ih h (inTurn_cons_succ.mp h') hrest]

end GameEngine

end Bomberrobots
