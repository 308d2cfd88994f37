import TestExplorer.Proofs.Interleaving.Record

set_option autoImplicit false

namespace TestExplorer

def Act.began? : Act → Option Invocation
  | began invocation => some invocation
  | _ => none

theorem Act.look_of_checked {act : Act} (leads : act.leadsTo = some .checked) :
    ∃ flag, act = .state (.isRaised flag) false := by
  unfold leadsTo at leads
  split at leads <;> first | exact ⟨_, rfl⟩ | cases leads

/-- The launch for which a run has already found its flag down. -/
def Phase.owed : Phase → Nat
  | checked => 1
  | _ => 0

theorem Phase.owed_le (p : Phase) : p.owed ≤ 1 := by
  cases p <;> decide

theorem Phase.checked_of_owed {p : Phase} (owed : 0 < p.owed) : p = .checked := by
  revert owed
  cases p <;> decide

namespace Phase.Permits

variable {own : Option Flag} {p : Phase} {act : Act}

theorem holdsLock_of_isLaunch (permitted : p.Permits own act) (launch : act.isLaunch = true) :
    p.holdsLock = true ∧ p.after act ≠ .left := by
  cases permitted with
  | host answer quiet idle => simp [Act.isLaunch_host quiet] at launch
  | begin invocation => exact ⟨rfl, nofun⟩
  | finish invocation result => exact ⟨rfl, nofun⟩
  | _ => cases launch

theorem left_of_left (permitted : p.Permits own act) (left : p = .left) : p.after act = .left := by
  cases permitted with
  | documents answer about idle => rw [after_documents p about, left]
  | host answer quiet idle => rw [after_host p quiet, left]
  | _ => cases left

theorem left_cases (permitted : p.Permits own act) (left : p.after act = .left) :
    p = .left ∨ p.holdsLock = true := by
  cases permitted with
  | documents answer about idle => exact .inl (by rwa [after_documents p about] at left)
  | host answer quiet idle => exact .inl (by rwa [after_host p quiet] at left)
  | leave => exact .inr rfl
  | look raised own => exact .inr rfl
  | _ => cases left

theorem spends {flag : Flag} (permitted : p.Permits (some flag) act)
    (seen : act ≠ .state (.isRaised flag) false) :
    act.began?.toList.length + (p.after act).owed ≤ p.owed := by
  cases permitted with
  | documents answer about idle => simp [after_documents p about, Act.began?]
  | host answer quiet idle => simp [after_host p quiet, Act.began?]
  | look raised own =>
    obtain rfl := Option.some.inj own
    cases raised with
    | true => exact Nat.le_refl 0
    | false => exact absurd rfl seen
  | begin invocation => exact Nat.le_refl 1
  | _ => exact Nat.zero_le _

end Phase.Permits

namespace Scene

variable {ι : Type}

def IsLaunchOf (i : ι) (entry : ι × Act) : Prop :=
  entry.1 = i ∧ entry.2.isLaunch = true

/-- No launch of `i` comes after one of `j`. -/
def Precedes (i j : ι) (log : List (ι × Act)) : Prop :=
  log.Pairwise fun earlier later => ¬ (IsLaunchOf j earlier ∧ IsLaunchOf i later)

section

variable {i j : ι} {log : List (ι × Act)}

theorem precedes_append (entry : ι × Act) : Precedes i j (log ++ [entry]) ↔
    Precedes i j log ∧ (IsLaunchOf i entry → ∀ earlier ∈ log, ¬ IsLaunchOf j earlier) := by
  simp only [Precedes, List.pairwise_append, List.pairwise_singleton, List.mem_singleton,
    forall_eq, true_and]
  refine and_congr_right fun _ => ?_
  exact ⟨fun apart launch earlier member other => apart earlier member ⟨other, launch⟩,
    fun apart earlier member both => apart both.2 earlier member both.1⟩

theorem precedes_of_none (none : ∀ entry ∈ log, ¬ IsLaunchOf j entry) : Precedes i j log := by
  refine List.pairwise_of_forall_mem_list ?_
  intro earlier member later _ both
  exact none earlier member both.1

end

variable [DecidableEq ι] {s : Scene ι} {tasks : ι → Task}

theorem noLaunch_of_outside {i : ι} (outside : s.phase i = .outside) :
    ∀ entry ∈ s.log, ¬ IsLaunchOf i entry := by
  rintro ⟨j, act⟩ member ⟨rfl, launch⟩
  exact Act.leadsTo_of_isLaunch launch (leadsTo_of_outside outside member)

/-! ## The order of launches -/

structure Serial (s : Scene ι) : Prop where
  apart : ∀ i j, i ≠ j → Precedes i j s.log ∨ Precedes j i s.log
  settled : ∀ i j, i ≠ j → s.phase i = .left → s.phase j ≠ .left → Precedes i j s.log

-- Beside the holder of the lock, a request has left it or has not come to it.
theorem Orderly.beside (orderly : s.Orderly tasks) {i j : ι} (other : j ≠ i)
    (inside : (s.phase i).holdsLock = true) : s.phase j = .outside ∨ s.phase j = .left := by
  have free : (s.phase j).holdsLock ≠ true := fun held => other (orderly.alone held inside)
  revert free
  cases s.phase j <;> simp [Phase.holdsLock]

section

variable {i : ι} {answers : Answers} {act : Act} {rest : Activity Task.Reply}

theorem Precedes.take {a b : ι} (precedes : Precedes a b s.log) (quiet : ¬ IsLaunchOf a (i, act)) :
    Precedes a b (s.take i act rest).log :=
  (precedes_append (i, act)).2 ⟨precedes, fun launch => absurd launch quiet⟩

theorem Serial.take_launch (serial : s.Serial) (orderly : s.Orderly tasks)
    (permitted : (s.phase i).Permits (tasks i).flag? act) (launch : act.isLaunch = true) :
    (s.take i act rest).Serial := by
  obtain ⟨inside, goesOn⟩ := permitted.holdsLock_of_isLaunch launch
  have here : s.phase i ≠ .left := fun left => by simp [left, Phase.holdsLock] at inside
  have quiet {a : ι} (other : a ≠ i) : ¬ IsLaunchOf a (i, act) := fun launch => other launch.1.symm
  -- Whoever has left the lock launches no more, and whoever has not come to it has not launched yet.
  have beside {b : ι} (other : b ≠ i) : Precedes i b (s.take i act rest).log ∨
      Precedes b i (s.take i act rest).log := by
    rcases orderly.beside other inside with outside | left
    · have none := noLaunch_of_outside outside
      exact .inl ((precedes_append _).2 ⟨precedes_of_none none, fun _ => none⟩)
    · exact .inr ((serial.settled b i other left here).take (quiet other))
  constructor
  case apart =>
    intro a b different
    by_cases first : a = i
    · subst first
      exact beside different.symm
    · by_cases second : b = i
      · subst second
        exact (beside first).symm
      · exact (serial.apart a b different).imp (·.take (quiet first)) (·.take (quiet second))
  case settled =>
    intro a b different left stays
    have first : a ≠ i := by
      rintro rfl
      exact goesOn (by simpa using left)
    rw [phase_take_of_ne first] at left
    refine (serial.settled a b different left ?_).take (quiet first)
    by_cases second : b = i
    · exact second ▸ here
    · rwa [phase_take_of_ne second] at stays

theorem Serial.take_other (serial : s.Serial) (orderly : s.Orderly tasks)
    (permitted : (s.phase i).Permits (tasks i).flag? act) (other : ¬ act.isLaunch = true) :
    (s.take i act rest).Serial := by
  have quiet (a : ι) : ¬ IsLaunchOf a (i, act) := fun launched => other launched.2
  constructor
  case apart =>
    intro a b different
    exact (serial.apart a b different).imp (·.take (quiet a)) (·.take (quiet b))
  case settled =>
    intro a b different left stays
    have stayed : s.phase b ≠ .left := by
      by_cases second : b = i
      · subst second
        rw [phase_take_self] at stays
        exact fun left => stays (permitted.left_of_left left)
      · rwa [phase_take_of_ne second] at stays
    refine Precedes.take ?_ (quiet a)
    by_cases first : a = i
    · subst first
      rw [phase_take_self] at left
      rcases permitted.left_cases left with left | inside
      · exact serial.settled a b different left stayed
      · have outside := (orderly.beside different.symm inside).resolve_right stayed
        exact precedes_of_none (noLaunch_of_outside outside)
    · rw [phase_take_of_ne first] at left
      exact serial.settled a b different left stayed

theorem Serial.take (serial : s.Serial) (orderly : s.Orderly tasks)
    (taken : s.next i answers = some (act, rest)) : (s.take i act rest).Serial := by
  have permitted := (orderly.step taken).1
  by_cases launch : act.isLaunch = true
  · exact serial.take_launch orderly permitted launch
  · exact serial.take_other orderly permitted launch

end

theorem Serial.play (serial : s.Serial) (orderly : s.Orderly tasks) (moves : List (Move ι)) :
    (s.play moves).Serial := by
  have both : (s.play moves).Serial ∧ (s.play moves).Orderly tasks := by
    refine play_induction (P := fun s => s.Serial ∧ s.Orderly tasks) ?raise ?take
      ⟨serial, orderly⟩ moves
    case raise => exact fun s flag held => ⟨{ held.1 with }, { held.2 with }⟩
    case take =>
      exact fun s i answers act rest held taken =>
        ⟨held.1.take held.2 taken, held.2.take taken⟩
  exact both.1

theorem serial_start (c : Controller) (tasks : ι → Task) (e : Engine) :
    (start c tasks e).Serial where
  apart _ _ _ := .inl List.Pairwise.nil
  settled _ _ _ _ _ := List.Pairwise.nil

/-! ## Launches after the flag -/

def begun (i : ι) (log : List (ι × Act)) : List Invocation :=
  log.filterMap fun (j, act) => if j = i then act.began? else none

theorem begun_append (i : ι) (log new : List (ι × Act)) :
    begun i (log ++ new) = begun i log ++ begun i new :=
  List.filterMap_append

theorem begun_singleton (i j : ι) (act : Act) :
    begun i [(j, act)] = if j = i then act.began?.toList else [] := by
  by_cases same : j = i
  · cases begins : act.began? <;> simp [begun, same, begins]
  · simp [begun, same]

theorem Orderly.spends (orderly : s.Orderly tasks) {i : ι} {flag : Flag}
    (own : (tasks i).flag? = some flag) (raised : s.engine.isRaised flag = true) {j : ι}
    {answers : Answers} {act : Act} {rest : Activity Task.Reply}
    (taken : s.next j answers = some (act, rest)) :
    (begun i [(j, act)]).length + ((s.take j act rest).phase i).owed ≤ (s.phase i).owed := by
  by_cases same : j = i
  · subst same
    have seen : act ≠ .state (.isRaised flag) false := by
      rintro rfl
      have down : false = s.engine.isRaised flag := (next_answer taken).2
      rw [raised] at down
      cases down
    have permitted := (orderly.step taken).1
    rw [own] at permitted
    rw [phase_take_self]
    simpa [begun_singleton] using permitted.spends seen
  · simp [begun_singleton, same, phase_take_of_ne (Ne.symm same)]

theorem Orderly.begins_at_most (orderly : s.Orderly tasks) {i : ι} {flag : Flag}
    (own : (tasks i).flag? = some flag) (raised : s.engine.isRaised flag = true)
    (moves : List (Move ι)) :
    ∃ more, begun i (s.play moves).log = begun i s.log ++ more ∧
      more.length + ((s.play moves).phase i).owed ≤ (s.phase i).owed := by
  -- What has begun and what is owed never come to more than what was owed when the flag was raised.
  have held : (s.play moves).Orderly tasks ∧ (s.play moves).engine.isRaised flag = true ∧
      ∃ more, begun i (s.play moves).log = begun i s.log ++ more ∧
        more.length + ((s.play moves).phase i).owed ≤ (s.phase i).owed := by
    refine play_induction (P := fun s' => s'.Orderly tasks ∧ s'.engine.isRaised flag = true ∧
      ∃ more, begun i s'.log = begun i s.log ++ more ∧
        more.length + (s'.phase i).owed ≤ (s.phase i).owed) ?raise ?take
      ⟨orderly, raised, [], by simp, by simp⟩ moves
    case raise =>
      rintro s' other ⟨orderly, raised, paid⟩
      exact ⟨{ orderly with }, Engine.isRaised_perform raised (.raise other), paid⟩
    case take =>
      rintro s' j answers act rest ⟨orderly, raised, more, begins, paid⟩ taken
      refine ⟨orderly.take taken, ?_, more ++ begun i [(j, act)], ?_, ?_⟩
      · cases act with
        | state action answer => exact Engine.isRaised_perform raised action
        | _ => exact raised
      · rw [take_log, begun_append, begins, List.append_assoc]
      · have spent := orderly.spends own raised taken
        rw [List.length_append]
        omega
  exact held.2.2

/-- The latest look of a request at a flag found it down, and no launch has begun since. -/
def HasLooked (i : ι) (flag : Flag) (log : List (ι × Act)) : Prop :=
  ∃ before after, log = before ++ (i, .state (.isRaised flag) false) :: after ∧
    ∀ act, (i, act) ∈ after → act.isLaunch = false

theorem Recorded.hasLooked {c : Controller} (recorded : s.Recorded c tasks) {i : ι} {flag : Flag}
    (own : (tasks i).flag? = some flag) (checked : s.phase i = .checked) :
    HasLooked i flag s.log := by
  have checked : phaseIn i s.log = .checked := checked
  obtain ⟨before, act, after, parts, leads, none⟩ := latest (by rw [checked]; nofun)
  rw [checked] at leads
  obtain ⟨other, rfl⟩ := Act.look_of_checked leads
  have mine := (recorded.truthful.looks i other false (by simp [parts])).1
  obtain rfl : other = flag := Option.some.inj (mine.symm.trans own)
  refine ⟨before, after, parts, fun act member => ?_⟩
  by_contra launch
  exact Act.leadsTo_of_isLaunch (by simpa using launch) (none act member)

theorem Recorded.owes {c : Controller} (recorded : s.Recorded c tasks) {i : ι} {flag : Flag}
    (own : (tasks i).flag? = some flag) {launches : List Invocation}
    (paid : launches.length ≤ (s.phase i).owed) :
    launches.length ≤ 1 ∧ (launches ≠ [] → HasLooked i flag s.log) := by
  refine ⟨Nat.le_trans paid (s.phase i).owed_le, fun some => recorded.hasLooked own ?_⟩
  exact Phase.checked_of_owed (Nat.lt_of_lt_of_le (List.length_pos_iff.2 some) paid)

end Scene

end TestExplorer
