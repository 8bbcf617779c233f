import ClusterWatch.Proofs.Session.Ending

/-!
# What becomes of nodes that are ended

`System.EndsAll` says what ending nodes comes to, and `Ending.endsAll` that it comes to this on every system that keeps
the laws. The signals are seen by running the same looks on `System.signalled`, which notes what is sent. That no node
ends otherwise because of another one is said of two worlds that are alike for its process, in which it may stand among
any others (`System.Separate`).
-/

namespace ClusterWatch

variable {World : Type}

/-! ## Signals -/

/-- What is sent to a process that is to end. -/
inductive Signal
  | exit
  | kill
deriving DecidableEq, Repr

/-- The system together with the signals that were sent. -/
def System.signalled (s : System World) : System (World × List (Pid × Signal)) where
  pathExists w := s.pathExists w.1
  spawn w path node args := ((s.spawn w.1 path node args).1, (s.spawn w.1 path node args).2, w.2)
  isAlive w := s.isAlive w.1
  requestExit w p := (s.requestExit w.1 p, w.2 ++ [(p, .exit)])
  kill w p := (s.kill w.1 p, w.2 ++ [(p, .kill)])

/-- The signals of nodes that end so: all that had not exited are asked to exit, then some are killed. -/
def signalsOf (ends : List (NodeHandle × Termination)) : List (Pid × Signal) :=
  (ends.filter (·.2 ≠ .alreadyExited)).map (fun e => (e.1.pid, .exit)) ++
    (ends.filter (·.2 = .killed)).map fun e => (e.1.pid, .kill)

namespace Ending
variable {s : System World} {moment : World → World} {known : World → Pid → Prop}

/-- What the first look at a node has sent. -/
def exits (e : Ending) : List (Pid × Signal) := if e.result = none then [(e.handle.pid, .exit)] else []

/-- What the last look at a node has sent. -/
def kills (e : Ending) : List (Pid × Signal) := if e.result = some .killed then [(e.handle.pid, .kill)] else []

theorem forAll_signalled {α : Type} {look : World → α → Ending × World}
    {look' : World × List (Pid × Signal) → α → Ending × World × List (Pid × Signal)}
    {sent : Ending → List (Pid × Signal)} {as : List α}
    (hlook : ∀ a ∈ as, ∀ w noted, look' (w, noted) a = ((look w a).1, (look w a).2, noted ++ sent (look w a).1))
    (w : World) (noted : List (Pid × Signal)) :
    forAll look' (w, noted) as =
      ((forAll look w as).1, (forAll look w as).2, noted ++ (forAll look w as).1.flatMap sent) := by
  induction as generalizing w noted with
  | nil => simp [forAll]
  | cons a as ih =>
    obtain ⟨hfirst, hrest⟩ := List.forall_mem_cons.1 hlook
    simp [forAll, hfirst, ih hrest]

theorem begin_signalled (s : System World) (w : World) (noted : List (Pid × Signal)) (h : NodeHandle) :
    begin s.signalled (w, noted) h = ((begin s w h).1, (begin s w h).2, noted ++ exits (begin s w h).1) := by
  rw [begin, begin, show s.signalled.isAlive (w, noted) h.pid = s.isAlive w h.pid from rfl]
  split <;> simp [exits, System.signalled]

theorem resume_signalled (s : System World) (graceOver : Bool) (w : World) (noted : List (Pid × Signal)) {e : Ending}
    (he : e.result ≠ some .killed) :
    resume s.signalled graceOver (w, noted) e =
      ((resume s graceOver w e).1, (resume s graceOver w e).2, noted ++ kills (resume s graceOver w e).1) := by
  rw [resume, resume, show s.signalled.isAlive (w, noted) e.handle.pid = s.isAlive w e.handle.pid from rfl]
  cases hr : e.result with
  | some t => simp [kills, he]
  | none => cases s.isAlive w e.handle.pid <;> cases graceOver <;> simp [kills, hr, System.signalled]

theorem resume_false_ne_killed (s : System World) (w : World) {e : Ending} (he : e.result ≠ some .killed) :
    (resume s false w e).1.result ≠ some .killed := by
  rw [resume]
  cases hr : e.result with
  | some t => exact he
  | none => cases s.isAlive w e.handle.pid <;> simp [hr]

theorem await_signalled (s : System World) (moment : World → World) (moments : Nat) (w : World)
    (noted : List (Pid × Signal)) {es : List Ending} (hes : ∀ e ∈ es, e.result ≠ some .killed) :
    await s.signalled (fun w => (moment w.1, w.2)) moments es (w, noted) =
      ((await s moment moments es w).1, (await s moment moments es w).2,
        noted ++ (await s moment moments es w).1.flatMap kills) := by
  induction moments generalizing es w with
  | zero => exact forAll_signalled (fun e he w noted => resume_signalled s true w noted (hes e he)) w noted
  | succ moments ih =>
    rw [await, await]
    split
    case isTrue =>
      have hnone : es.flatMap kills = [] := List.flatMap_eq_nil_iff.2 fun e he => if_neg (hes e he)
      rw [hnone, List.append_nil]
    case isFalse =>
      have hstill : ∀ e ∈ es.map fun e => (resume s false (moment w) e).1, e.result ≠ some .killed :=
        List.forall_mem_map.2 fun e he => resume_false_ne_killed s (moment w) (hes e he)
      have hlooks : es.map (fun e => (resume s.signalled false (moment w, noted) e).1) =
          es.map fun e => (resume s false (moment w) e).1 :=
        List.map_congr_left fun e he => by rw [resume_signalled s false (moment w) noted (hes e he)]
      rw [forAll_resume_false, forAll_resume_false]
      dsimp only
      rw [hlooks, ih (moment w) hstill]

theorem exits_ended (s : System World) (late : World) {es : List Ending}
    (hes : ∀ e ∈ es, e.result = none ∨ e.result = some .alreadyExited) :
    ((es.map fun e => (e.handle, verdict s late e)).filter (·.2 ≠ .alreadyExited)).map
      (fun e => (e.1.pid, Signal.exit)) = es.flatMap exits := by
  induction es with
  | nil => rfl
  | cons e es ih =>
    obtain ⟨he, hrest⟩ := List.forall_mem_cons.1 hes
    rcases he with hr | hr <;> cases halive : s.isAlive late e.handle.pid <;>
      simp [exits, verdict, hr, halive, ← ih hrest]

theorem kills_ended (s : System World) (late : World) (es : List Ending) :
    ((es.map fun e => (e.handle, verdict s late e)).filter (·.2 = .killed)).map
      (fun e => (e.1.pid, Signal.kill)) = (es.map (ended s late)).flatMap kills := by
  induction es with
  | nil => rfl
  | cons e es ih => by_cases h : verdict s late e = .killed <;> simp [kills, ended, h, ← ih]

theorem result_begin (s : System World) (w : World) (handles : List NodeHandle) :
    ∀ e ∈ (forAll (begin s) w handles).1, e.result = none ∨ e.result = some .alreadyExited := by
  induction handles generalizing w with
  | nil => exact fun e he => absurd he List.not_mem_nil
  | cons h handles ih =>
    have hfirst : (begin s w h).1.result = none ∨ (begin s w h).1.result = some .alreadyExited := by
      rw [begin_fst]
      cases s.isAlive w h.pid
      · exact .inr rfl
      · exact .inl rfl
    exact List.forall_mem_cons.2 ⟨hfirst, ih _⟩

/-- What is sent can be told from how the nodes end. -/
theorem endAll_signalled (laws : s.LawfulEnding moment known) (moments : Nat) (w : World) {handles : List NodeHandle}
    (hknown : ∀ h ∈ handles, known w h.pid) (hpids : (pidsOf handles).Nodup) :
    endAll s.signalled (fun w => (moment w.1, w.2)) moments (w, []) handles =
      ((endAll s moment moments w handles).1, (endAll s moment moments w handles).2,
        signalsOf (handles.zip ((endAll s moment moments w handles).1.map (·.2)))) := by
  have hbegun := result_begin s w handles
  have hnotKilled : ∀ e ∈ (forAll (begin s) w handles).1, e.result ≠ some .killed := by
    intro e he
    rcases hbegun e he with hr | hr <;> simp [hr]
  have hends : handles.zip ((endAll s moment moments w handles).1.map (·.2)) =
      (forAll (begin s) w handles).1.map fun e =>
        (e.handle, verdict s (moment^[moments] (asked s w handles)) e) := by
    rw [endAll_fst laws moments w hknown hpids, List.map_map]
    conv => lhs; arg 1; rw [← map_handle_begin s w handles]
    rw [List.zip_map']
    rfl
  have hawaited := await_begin laws moments w hknown hpids
  rw [hends, signalsOf, exits_ended s _ hbegun, kills_ended, ← hawaited, endAll,
    forAll_signalled fun h _ w noted => begin_signalled s w noted h]
  dsimp only
  rw [await_signalled s moment moments _ _ hnotKilled]
  simp [endAll, asked]

/-! ## Each node by itself -/

theorem dead_iterate_iff (laws : s.LawfulEnding moment known) (moments : Nat) {w : World} {p : Pid} (hp : known w p) :
    s.isAlive (moment^[moments] w) p = false ↔ ∃ k ≤ moments, s.isAlive (moment^[k] w) p = false := by
  refine ⟨fun h => ⟨moments, Nat.le_refl _, h⟩, fun ⟨k, hk, hdead⟩ => ?_⟩
  rw [← Nat.sub_add_cancel hk, Function.iterate_add_apply]
  exact (laws.iterate (moments - k) _).dead ((laws.iterate k w).kept hp) hdead

theorem later_asked (laws : s.LawfulEnding moment known) (w : World) (before after : List NodeHandle) :
    s.Later known (asked s w before) (asked s w (before ++ after)) := by
  rw [asked, asked, forAll_append]
  exact later_forAll (later_begin laws) _ after

end Ending

/-! ## Nodes that do not know of each other -/

/-- What becomes of the process `p` depends on nothing but itself: worlds that are alike for it stay so, whatever other
process is asked to exit. -/
structure System.Separate (s : System World) (moment : World → World) (p : Pid) (alike : World → World → Prop) :
    Prop where
  isAlive {w w' : World} : alike w w' → s.isAlive w p = s.isAlive w' p
  passes {w w' : World} : alike w w' → alike (moment w) (moment w')
  requestExit {w w' : World} : alike w w' → alike (s.requestExit w p) (s.requestExit w' p)
  left {w w' : World} {q : Pid} : q ≠ p → alike w w' → alike (s.requestExit w q) w'
  right {w w' : World} {q : Pid} : q ≠ p → alike w w' → alike w (s.requestExit w' q)

namespace Ending
variable {s : System World} {moment : World → World} {known : World → Pid → Prop} {alike : World → World → Prop}
  {w w' : World}

theorem alike_iterate {p : Pid} (hsep : s.Separate moment p alike) (moments : Nat) (hw : alike w w') :
    alike (moment^[moments] w) (moment^[moments] w') := by
  induction moments generalizing w w' with
  | zero => exact hw
  | succ moments ih => exact ih (hsep.passes hw)

/-- What asking another process to exit keeps, asking any number of others keeps. -/
theorem asked_keeps (keeps : World → Prop) {p : Pid}
    (hkeeps : ∀ {w : World} {q : Pid}, q ≠ p → keeps w → keeps (s.requestExit w q)) {handles : List NodeHandle}
    (hp : p ∉ pidsOf handles) (hw : keeps w) : keeps (asked s w handles) := by
  induction handles generalizing w with
  | nil => exact hw
  | cons h handles ih =>
    obtain ⟨hne, hrest⟩ := not_or.1 (mt List.mem_cons.2 hp)
    have hfirst : keeps (begin s w h).2 := by
      rw [begin]
      split
      · exact hkeeps (Ne.symm hne) hw
      · exact hw
    exact ih hrest hfirst

theorem alike_asked {p : Pid} (hsep : s.Separate moment p alike) {handles handles' : List NodeHandle}
    (hp : p ∉ pidsOf handles) (hp' : p ∉ pidsOf handles') (hw : alike w w') :
    alike (asked s w handles) (asked s w' handles') := by
  have hright : alike w (asked s w' handles') := asked_keeps (alike w) hsep.right hp' hw
  exact asked_keeps (alike · (asked s w' handles')) hsep.left hp hright

theorem alike_begin {h : NodeHandle} (hsep : s.Separate moment h.pid alike) (hw : alike w w') :
    alike (begin s w h).2 (begin s w' h).2 := by
  rw [begin, begin, hsep.isAlive hw]
  split
  · exact hsep.requestExit hw
  · exact hw

theorem asked_split (s : System World) (w : World) (before after : List NodeHandle) (h : NodeHandle) :
    asked s w (before ++ h :: after) = asked s (begin s (asked s w before) h).2 after := by
  rw [asked, forAll_append]
  rfl

/-- A node ends as it does among other nodes. -/
theorem getElem?_endAll_alike (laws : s.LawfulEnding moment known) (moments : Nat) (hw : alike w w')
    {before after before' after' : List NodeHandle} {h : NodeHandle} (hsep : s.Separate moment h.pid alike)
    (hknown : ∀ h' ∈ before ++ h :: after, known w h'.pid) (hpids : (pidsOf (before ++ h :: after)).Nodup)
    (hknown' : ∀ h' ∈ before' ++ h :: after', known w' h'.pid) (hpids' : (pidsOf (before' ++ h :: after')).Nodup) :
    (endAll s moment moments w (before ++ h :: after)).1[before.length]? =
      (endAll s moment moments w' (before' ++ h :: after')).1[before'.length]? := by
  have hnot {before after : List NodeHandle} (hpids : (pidsOf (before ++ h :: after)).Nodup) :
      h.pid ∉ pidsOf before ∧ h.pid ∉ pidsOf after := by
    rw [pidsOf, List.map_append, List.map_cons, List.nodup_append] at hpids
    obtain ⟨-, hrest, hdisjoint⟩ := hpids
    exact ⟨fun hmem => hdisjoint _ hmem _ List.mem_cons_self rfl, (List.nodup_cons.1 hrest).1⟩
  have hturn : alike (asked s w before) (asked s w' before') :=
    alike_asked hsep (hnot hpids).1 (hnot hpids').1 hw
  have hasked : alike (asked s w (before ++ h :: after)) (asked s w' (before' ++ h :: after')) := by
    rw [asked_split, asked_split]
    exact alike_asked hsep (hnot hpids).2 (hnot hpids').2 (alike_begin hsep hturn)
  rw [getElem?_endAll laws moments w hknown hpids, getElem?_endAll laws moments w' hknown' hpids', fate, fate,
    hsep.isAlive hturn, hsep.isAlive (alike_iterate hsep moments hasked)]

end Ending

/-! ## The outcome -/

/-- What ending the nodes of handles comes to, when so many moments may pass. -/
structure System.EndsAll (s : System World) (moment : World → World) (known : World → Pid → Prop) (moments : Nat)
    (w : World) (handles : List NodeHandle) : Prop where
  /-- There is one entry a handle, in their order. -/
  nodes : (Ending.endAll s moment moments w handles).1.map (·.1) = handles.map (·.node)
  /-- A node had exited when its turn came to be asked, or it exits in the moments that pass when all have been asked,
  or it lives through all of them. -/
  outcome {before after : List NodeHandle} {h : NodeHandle} (hsplit : handles = before ++ h :: after) :
    ∃ t, (Ending.endAll s moment moments w handles).1[before.length]? = some (h.node, t) ∧
      (t = .alreadyExited ↔ s.isAlive (Ending.asked s w before) h.pid = false) ∧
      (t = .graceful ↔ s.isAlive (Ending.asked s w before) h.pid = true ∧
        ∃ k ≤ moments, s.isAlive (moment^[k] (Ending.asked s w handles)) h.pid = false) ∧
      (t = .killed ↔ ∀ k ≤ moments, s.isAlive (moment^[k] (Ending.asked s w handles)) h.pid = true)
  /-- A node ends in the same way among other nodes and in another world, if both are alike for it. -/
  apart {alike : World → World → Prop} {w' : World} {before after : List NodeHandle} {h : NodeHandle}
    (before' after' : List NodeHandle) (hsplit : handles = before ++ h :: after)
    (hsep : s.Separate moment h.pid alike) (hw : alike w w')
    (hknown : ∀ h' ∈ before' ++ h :: after', known w' h'.pid) (hpids : (pidsOf (before' ++ h :: after')).Nodup) :
    (Ending.endAll s moment moments w handles).1[before.length]? =
      (Ending.endAll s moment moments w' (before' ++ h :: after')).1[before'.length]?
  signals :
    (Ending.endAll s.signalled (fun w => (moment w.1, w.2)) moments (w, []) handles).2.2 =
      signalsOf (handles.zip ((Ending.endAll s moment moments w handles).1.map (·.2)))
  gone : ∀ h ∈ handles, s.isAlive (Ending.endAll s moment moments w handles).2 h.pid = false
  liveCount : s.liveCount (Ending.endAll s moment moments w handles).2 handles = 0
  anyAlive : s.anyAlive (Ending.endAll s moment moments w handles).2 handles = false

namespace Ending
variable {s : System World} {moment : World → World} {known : World → Pid → Prop}

theorem endsAll (laws : s.LawfulEnding moment known) (moments : Nat) (w : World) {handles : List NodeHandle}
    (hknown : ∀ h ∈ handles, known w h.pid) (hpids : (pidsOf handles).Nodup) :
    s.EndsAll moment known moments w handles where
  nodes := by
    rw [endAll_fst laws moments w hknown hpids, List.map_map]
    conv => rhs; rw [← map_handle_begin s w handles, List.map_map]
    rfl
  outcome {before after h} hsplit := by
    subst hsplit
    have hturn : known (asked s w before) h.pid :=
      (later_forAll (later_begin laws) w before).kept (hknown h (by simp))
    have hlater := later_asked laws w before (h :: after)
    have hdead := dead_iterate_iff laws moments (hlater.kept hturn)
    refine ⟨_, getElem?_endAll laws moments w hknown hpids, ?_⟩
    have hkilled : (∀ k ≤ moments, s.isAlive (moment^[k] (asked s w (before ++ h :: after))) h.pid = true) ↔
        s.isAlive (moment^[moments] (asked s w (before ++ h :: after))) h.pid = true := by
      rw [← Bool.not_eq_false, hdead]
      simp
    rw [← hdead, hkilled, fate]
    cases hlate : s.isAlive (moment^[moments] (asked s w (before ++ h :: after))) h.pid with
    | false => cases s.isAlive (asked s w before) h.pid <;> simp
    | true =>
      have halive := hlater.alive hturn ((laws.iterate moments _).alive (hlater.kept hturn) hlate)
      simp [halive]
  apart before' after' hsplit hsep hw hknown' hpids' := by
    subst hsplit
    exact getElem?_endAll_alike laws moments hw hsep hknown hpids hknown' hpids'
  signals := by rw [endAll_signalled laws moments w hknown hpids]
  gone := dead_endAll laws moments w hknown
  liveCount := by simpa [System.liveCount, List.countP_eq_zero] using dead_endAll laws moments w hknown
  anyAlive := by simpa [System.anyAlive] using dead_endAll laws moments w hknown

end Ending

end ClusterWatch
