import ClusterWatch.Proofs.Session.Processes
import Mathlib.Logic.Function.Iterate

/-!
# Ending all nodes

All nodes are asked to exit, and then looked at from moment to moment until all have ended or their time is over.
`endAll` is this run over the looks `Ending.begin` and `Ending.resume`, on any system that keeps the laws of
`System.LawfulEnding`. What the run keeps is `Sound`: the processes are known, and those of nodes that have ended are
dead. How a node ends can be told from two worlds, the one in which its turn comes to be asked and the one in which
the time of all is over (`fate`): an earlier look only notes what the last one would see (`ended_resume_false`), and
the kills of the last round reach no other node (`forAll_resume_true`). So the results stand in the order of the nodes,
each for itself (`getElem?_endAll`), and no process lives afterwards (`dead_endAll`).
-/

namespace ClusterWatch

variable {World : Type}

/-! ## Processes that are being ended -/

/-- `w'` comes after `w`: no process that is known is forgotten, and none comes to life. -/
structure System.Later (s : System World) (known : World → Pid → Prop) (w w' : World) : Prop where
  kept {p : Pid} : known w p → known w' p
  alive {p : Pid} : known w p → s.isAlive w' p = true → s.isAlive w p = true

namespace System.Later
variable {s : System World} {known : World → Pid → Prop} {w w' w'' : World} {p : Pid}

theorem refl (w : World) : s.Later known w w := ⟨id, fun _ => id⟩

theorem trans (h : s.Later known w w') (h' : s.Later known w' w'') : s.Later known w w'' :=
  ⟨h'.kept ∘ h.kept, fun hp halive => h.alive hp (h'.alive (h.kept hp) halive)⟩

theorem dead (h : s.Later known w w') (hp : known w p) (hdead : s.isAlive w p = false) :
    s.isAlive w' p = false := by
  rw [← Bool.not_eq_true] at hdead ⊢
  exact mt (h.alive hp) hdead

end System.Later

/-- The behaviour of processes that ending them relies on, in a world in which moments pass: no process comes to
life by a signal or in a moment, and a kill ends the process that it is for and no other. Anything else may happen in
a moment, or when a process is asked to exit. -/
structure System.LawfulEnding (s : System World) (moment : World → World) (known : World → Pid → Prop) : Prop where
  passes (w : World) : s.Later known w (moment w)
  requestExit (w : World) (p : Pid) : s.Later known w (s.requestExit w p)
  kill (w : World) (p : Pid) : s.Later known w (s.kill w p)
  killed {w : World} {p : Pid} : known w p → s.isAlive (s.kill w p) p = false
  kill_other {w : World} {p q : Pid} :
    known w p → p ≠ q → s.isAlive w p = true → s.isAlive (s.kill w q) p = true

namespace System.LawfulEnding
variable {s : System World} {moment : World → World} {known : World → Pid → Prop}

theorem isAlive_kill (laws : s.LawfulEnding moment known) {w : World} {p q : Pid} (hp : known w p) (h : p ≠ q) :
    s.isAlive (s.kill w q) p = s.isAlive w p :=
  Bool.eq_iff_iff.2 ⟨(laws.kill w q).alive hp, laws.kill_other hp h⟩

theorem iterate (laws : s.LawfulEnding moment known) (moments : Nat) (w : World) :
    s.Later known w (moment^[moments] w) := by
  induction moments generalizing w with
  | zero => exact .refl w
  | succ moments ih => exact (laws.passes w).trans (ih (moment w))

end System.LawfulEnding

namespace Ending

/-! ## Rounds of looks -/

/-- Waits for nodes to end: a moment passes and all are looked at again, so often as there are moments left and not
all have ended. Those that live when no moment is left are killed. -/
def await (s : System World) (moment : World → World) : (moments : Nat) → List Ending → World → List Ending × World
  | 0, es, w => forAll (resume s true) w es
  | moments + 1, es, w =>
    if (results? es).isSome then (es, w)
    else await s moment moments (forAll (resume s false) (moment w) es).1 (forAll (resume s false) (moment w) es).2

/-- Ends nodes: all are asked to exit and waited for, so many moments at most. -/
def endAll (s : System World) (moment : World → World) (moments : Nat) (w : World) (handles : List NodeHandle) :
    List (NodeId × Termination) × World :=
  let (es, w) := forAll (begin s) w handles
  let (es, w) := await s moment moments es w
  ((results? es).getD [], w)

theorem forAll_append {α : Type} (look : World → α → Ending × World) (w : World) (as bs : List α) :
    forAll look w (as ++ bs) =
      ((forAll look w as).1 ++ (forAll look (forAll look w as).2 bs).1, (forAll look (forAll look w as).2 bs).2) := by
  induction as generalizing w with
  | nil => rfl
  | cons a as ih => simp [forAll, ih]

/-- A look before the time is over changes nothing in the world. -/
theorem forAll_resume_false (s : System World) (w : World) (es : List Ending) :
    forAll (resume s false) w es = (es.map fun e => (resume s false w e).1, w) := by
  have hworld (e : Ending) : (resume s false w e).2 = w := by
    rw [resume]
    cases e.result with
    | some t => rfl
    | none => cases s.isAlive w e.handle.pid <;> rfl
  induction es with
  | nil => rfl
  | cons e es ih => simp only [forAll, hworld, ih, List.map_cons]

theorem isSome_results? {es : List Ending} :
    (results? es).isSome = true ↔ ∀ e ∈ es, e.result.isSome = true := by
  induction es with
  | nil => simp [results?]
  | cons e es ih =>
    rw [List.forall_mem_cons, ← ih, results?, List.mapM_cons]
    cases e.result with
    | none => simp
    | some t => cases h : es.mapM fun e => e.result.map (e.handle.node, ·) <;> simp [results?, h]

theorem begin_fst (s : System World) (w : World) (h : NodeHandle) :
    (begin s w h).1 = ⟨h, if s.isAlive w h.pid then none else some .alreadyExited⟩ := by
  rw [begin]
  split <;> rfl

theorem map_handle_begin (s : System World) (w : World) (handles : List NodeHandle) :
    (forAll (begin s) w handles).1.map (·.handle) = handles := by
  induction handles generalizing w with
  | nil => rfl
  | cons h handles ih => rw [forAll, List.map_cons, ih, begin_fst]

theorem length_begin (s : System World) (w : World) (handles : List NodeHandle) :
    (forAll (begin s) w handles).1.length = handles.length := by
  rw [← List.length_map (·.handle), map_handle_begin]

theorem handle_resume (s : System World) (graceOver : Bool) (w : World) (e : Ending) :
    (resume s graceOver w e).1.handle = e.handle := by
  rw [resume]
  cases e.result with
  | some t => rfl
  | none => cases s.isAlive w e.handle.pid <;> cases graceOver <;> rfl

/-! ## The world goes on -/

variable {s : System World} {moment : World → World} {known : World → Pid → Prop}

/-- What each look does to the world, a round of looks does. -/
theorem forAll_snd {α : Type} {look : World → α → Ending × World} {rel : World → World → Prop} (hrefl : ∀ w, rel w w)
    (htrans : ∀ {w w' w''}, rel w w' → rel w' w'' → rel w w'') (hlook : ∀ w a, rel w (look w a).2) (w : World)
    (as : List α) : rel w (forAll look w as).2 := by
  induction as generalizing w with
  | nil => exact hrefl w
  | cons a as ih => exact htrans (hlook w a) (ih (look w a).2)

theorem later_forAll {α : Type} {look : World → α → Ending × World} (hlook : ∀ w a, s.Later known w (look w a).2)
    (w : World) (as : List α) : s.Later known w (forAll look w as).2 :=
  forAll_snd .refl .trans hlook w as

theorem later_begin (laws : s.LawfulEnding moment known) (w : World) (h : NodeHandle) :
    s.Later known w (begin s w h).2 := by
  rw [begin]
  split
  · exact laws.requestExit w h.pid
  · exact .refl w

theorem later_resume (laws : s.LawfulEnding moment known) (graceOver : Bool) (w : World) (e : Ending) :
    s.Later known w (resume s graceOver w e).2 := by
  rw [resume]
  cases e.result with
  | some t => exact .refl w
  | none =>
    cases s.isAlive w e.handle.pid with
    | false => exact .refl w
    | true =>
      cases graceOver with
      | false => exact .refl w
      | true => exact laws.kill w e.handle.pid

/-- What is true of the nodes that are being ended: their processes are known, and those that have ended are dead. -/
def Sound (s : System World) (known : World → Pid → Prop) (w : World) (es : List Ending) : Prop :=
  ∀ e ∈ es, known w e.handle.pid ∧ (e.result.isSome = true → s.isAlive w e.handle.pid = false)

theorem Sound.later {w w' : World} {es : List Ending} (h : Sound s known w es) (hlater : s.Later known w w') :
    Sound s known w' es :=
  fun e he => ⟨hlater.kept (h e he).1, fun hresult => hlater.dead (h e he).1 ((h e he).2 hresult)⟩

theorem sound_begin (laws : s.LawfulEnding moment known) (w : World) {handles : List NodeHandle}
    (hknown : ∀ h ∈ handles, known w h.pid) :
    Sound s known (forAll (begin s) w handles).2 (forAll (begin s) w handles).1 := by
  induction handles generalizing w with
  | nil => exact fun e he => absurd he List.not_mem_nil
  | cons h handles ih =>
    obtain ⟨hp, hrest⟩ := List.forall_mem_cons.1 hknown
    have hlater := later_begin laws w h
    have hfirst : Sound s known w [(begin s w h).1] := by
      intro e he
      rw [List.mem_singleton.1 he, begin_fst]
      refine ⟨hp, fun hresult => ?_⟩
      cases halive : s.isAlive w h.pid with
      | false => rfl
      | true => simp [halive] at hresult
    refine List.forall_mem_cons.2 ⟨?_, ih _ fun h' hh' => hlater.kept (hrest h' hh')⟩
    exact hfirst.later (hlater.trans (later_forAll (later_begin laws) _ handles)) _ List.mem_cons_self

theorem sound_resume_false {w : World} {es : List Ending} (h : Sound s known w es) :
    Sound s known w (es.map fun e => (resume s false w e).1) := by
  refine List.forall_mem_map.2 fun e he => ?_
  rw [handle_resume]
  refine ⟨(h e he).1, fun hresult => ?_⟩
  rw [resume] at hresult
  cases hr : e.result with
  | some t => exact (h e he).2 (by rw [hr]; rfl)
  | none =>
    cases halive : s.isAlive w e.handle.pid with
    | false => rfl
    | true => simp [hr, halive] at hresult

/-- After the last round none of the processes lives. -/
theorem dead_forAll_resume_true (laws : s.LawfulEnding moment known) {w : World} {es : List Ending}
    (h : Sound s known w es) : ∀ e ∈ es, s.isAlive (forAll (resume s true) w es).2 e.handle.pid = false := by
  induction es generalizing w with
  | nil => exact fun e he => absurd he List.not_mem_nil
  | cons e es ih =>
    obtain ⟨⟨hp, hended⟩, hrest⟩ := List.forall_mem_cons.1 h
    have hlater := later_resume laws true w e
    refine List.forall_mem_cons.2 ⟨?_, ih (Sound.later hrest hlater)⟩
    have hdead : s.isAlive (resume s true w e).2 e.handle.pid = false := by
      rw [resume]
      cases hr : e.result with
      | some t => exact hended (by rw [hr]; rfl)
      | none =>
        cases halive : s.isAlive w e.handle.pid with
        | false => exact halive
        | true => exact laws.killed hp
    exact (later_forAll (later_resume laws true) _ es).dead (hlater.kept hp) hdead

theorem dead_await (laws : s.LawfulEnding moment known) (moments : Nat) {w : World} {es : List Ending}
    (h : Sound s known w es) : ∀ e ∈ es, s.isAlive (await s moment moments es w).2 e.handle.pid = false := by
  induction moments generalizing es w with
  | zero => exact dead_forAll_resume_true laws h
  | succ moments ih =>
    rw [await]
    split
    case isTrue hall => exact fun e he => (h e he).2 (isSome_results?.1 hall e he)
    case isFalse =>
      rw [forAll_resume_false]
      have hlooked := ih (sound_resume_false (h.later (laws.passes w)))
      intro e he
      rw [← handle_resume s false (moment w) e]
      exact hlooked _ (List.mem_map_of_mem he)

/-! ## How nodes end -/

/-- How a node that has come so far ends if its time is over in the world `w`. -/
def verdict (s : System World) (w : World) (e : Ending) : Termination :=
  e.result.getD (if s.isAlive w e.handle.pid then .killed else .graceful)

/-- The node has ended so. -/
def ended (s : System World) (w : World) (e : Ending) : Ending := { e with result := some (verdict s w e) }

theorem results?_ended (s : System World) (w : World) (es : List Ending) :
    results? (es.map (ended s w)) = some (es.map fun e => (e.handle.node, verdict s w e)) := by
  induction es with
  | nil => rfl
  | cons e es ih =>
    rw [results?] at ih ⊢
    rw [List.map_cons, List.mapM_cons, ih]
    rfl

theorem ended_of_isSome {w : World} {e : Ending} (h : e.result.isSome = true) : ended s w e = e := by
  obtain ⟨handle, _ | t⟩ := e
  · cases h
  · rfl

/-- The kills of a round reach no node that is looked at later. -/
theorem forAll_resume_true (laws : s.LawfulEnding moment known) {w : World} {es : List Ending}
    (h : Sound s known w es) (hpids : (pidsOf (es.map (·.handle))).Nodup) :
    (forAll (resume s true) w es).1 = es.map (ended s w) := by
  induction es generalizing w with
  | nil => rfl
  | cons e es ih =>
    obtain ⟨hne, hdistinct⟩ := List.nodup_cons.1 hpids
    have hrest : Sound s known w es := (List.forall_mem_cons.1 h).2
    have hkilled : es.map (ended s (s.kill w e.handle.pid)) = es.map (ended s w) := by
      refine List.map_congr_left fun e' he' => ?_
      have hmem : e'.handle.pid ∈ pidsOf (es.map (·.handle)) := List.mem_map_of_mem (List.mem_map_of_mem he')
      have hpid : e'.handle.pid ≠ e.handle.pid := by
        intro heq
        rw [heq] at hmem
        exact hne hmem
      rw [ended, ended, verdict, verdict, laws.isAlive_kill (hrest e' he').1 hpid]
    rw [forAll, List.map_cons]
    dsimp only
    rw [ih (hrest.later (later_resume laws true w e)) hdistinct, resume]
    cases hr : e.result with
    | some t => rw [ended_of_isSome (by rw [hr]; rfl)]
    | none =>
      cases halive : s.isAlive w e.handle.pid with
      | false => simp [ended, verdict, hr, halive]
      | true => simp [ended, verdict, hr, halive, hkilled]

/-- What a look sees before the time is over does not change how a node ends. -/
theorem ended_resume_false (laws : s.LawfulEnding moment known) (moments : Nat) {w : World} {e : Ending}
    (hp : known w e.handle.pid) :
    ended s (moment^[moments] w) (resume s false w e).1 = ended s (moment^[moments] w) e := by
  rw [resume]
  cases hr : e.result with
  | some t => rfl
  | none =>
    cases halive : s.isAlive w e.handle.pid with
    | true => rfl
    | false => simp [ended, verdict, hr, (laws.iterate moments w).dead hp halive]

/-- After the wait every node has ended, as it stands with it when the time is over. -/
theorem await_eq (laws : s.LawfulEnding moment known) (moments : Nat) {w : World} {es : List Ending}
    (h : Sound s known w es) (hpids : (pidsOf (es.map (·.handle))).Nodup) :
    (await s moment moments es w).1 = es.map (ended s (moment^[moments] w)) := by
  induction moments generalizing es w with
  | zero => exact forAll_resume_true laws h hpids
  | succ moments ih =>
    rw [await]
    split
    case isTrue hall =>
      have hsame : es.map (ended s (moment^[moments + 1] w)) = es.map id :=
        List.map_congr_left fun e he => ended_of_isSome (isSome_results?.1 hall e he)
      rw [hsame, List.map_id]
    case isFalse =>
      have hlater : Sound s known (moment w) es := h.later (laws.passes w)
      rw [forAll_resume_false]
      dsimp only
      rw [ih (sound_resume_false hlater), List.map_map]
      · exact List.map_congr_left fun e he => ended_resume_false laws moments (hlater e he).1
      · rwa [List.map_map, funext (f := _ ∘ _) fun e => handle_resume s false (moment w) e]

/-! ## The results -/

/-- The world in which nodes have been asked. -/
def asked (s : System World) (w : World) (handles : List NodeHandle) : World := (forAll (begin s) w handles).2

/-- How a node ends that is asked in the world `turn` and whose time is over in the world `late`. -/
def fate (s : System World) (turn late : World) (h : NodeHandle) : Termination :=
  if s.isAlive turn h.pid then if s.isAlive late h.pid then .killed else .graceful else .alreadyExited

theorem verdict_begin (s : System World) (turn late : World) (h : NodeHandle) :
    verdict s late (begin s turn h).1 = fate s turn late h := by
  rw [begin_fst, fate]
  cases s.isAlive turn h.pid <;> rfl

theorem await_begin (laws : s.LawfulEnding moment known) (moments : Nat) (w : World) {handles : List NodeHandle}
    (hknown : ∀ h ∈ handles, known w h.pid) (hpids : (pidsOf handles).Nodup) :
    (await s moment moments (forAll (begin s) w handles).1 (asked s w handles)).1 =
      (forAll (begin s) w handles).1.map (ended s (moment^[moments] (asked s w handles))) :=
  await_eq laws moments (sound_begin laws w hknown) (by rwa [map_handle_begin])

theorem endAll_fst (laws : s.LawfulEnding moment known) (moments : Nat) (w : World) {handles : List NodeHandle}
    (hknown : ∀ h ∈ handles, known w h.pid) (hpids : (pidsOf handles).Nodup) :
    (endAll s moment moments w handles).1 = (forAll (begin s) w handles).1.map fun e =>
      (e.handle.node, verdict s (moment^[moments] (asked s w handles)) e) := by
  show (results? (await s moment moments _ (asked s w handles)).1).getD [] = _
  rw [await_begin laws moments w hknown hpids, results?_ended, Option.getD_some]

/-- The result of a node stands at its place. -/
theorem getElem?_endAll (laws : s.LawfulEnding moment known) (moments : Nat) (w : World)
    {before after : List NodeHandle} {h : NodeHandle} (hknown : ∀ h' ∈ before ++ h :: after, known w h'.pid)
    (hpids : (pidsOf (before ++ h :: after)).Nodup) :
    (endAll s moment moments w (before ++ h :: after)).1[before.length]? =
      some (h.node, fate s (asked s w before) (moment^[moments] (asked s w (before ++ h :: after))) h) := by
  have hlength := length_begin s w before
  rw [endAll_fst laws moments w hknown hpids, forAll_append]
  dsimp only
  rw [List.getElem?_map, List.getElem?_append_right (Nat.le_of_eq hlength), hlength, Nat.sub_self, forAll]
  show some ((begin s (asked s w before) h).1.handle.node, verdict _ _ (begin s (asked s w before) h).1) = _
  rw [verdict_begin, begin_fst]

/-- No process that is held lives when all have ended. -/
theorem dead_endAll (laws : s.LawfulEnding moment known) (moments : Nat) (w : World) {handles : List NodeHandle}
    (hknown : ∀ h ∈ handles, known w h.pid) :
    ∀ h ∈ handles, s.isAlive (endAll s moment moments w handles).2 h.pid = false := by
  have hdead := dead_await laws moments (sound_begin laws w hknown)
  intro h hh
  rw [← map_handle_begin s w handles] at hh
  obtain ⟨e, he, rfl⟩ := List.mem_map.1 hh
  exact hdead e he

end Ending

end ClusterWatch
