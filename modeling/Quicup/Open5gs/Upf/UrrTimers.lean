import Mathlib.Data.UInt
import Quicup.Open5gs.Pfcp.RuleSteps
import Quicup.Open5gs.Upf.N4Handler
import Quicup.Open5gs.Upf.UrrAcc

/-!
# Timers of URRs

A timer of an accumulator points to the URR that it was made for. The rules of a session are
created, changed and removed without a look at the timers, so that the URR of a timer may be
gone when it ends.
-/

namespace Quicup.Open5gs

open Pfcp Procedure System Function

/-! ## Steps -/

/-- The sessions with their rules, and by session and place its accumulators. -/
structure TimedState where
  upf : UpfState
  accs : Nat → Nat → UpfSessUrrAcc := fun _ _ => {}

namespace TimedState

variable (s : TimedState) (sess : Nat)

/-- The slots of the URRs of a session. -/
def liveUrrs : List Nat := (s.upf.rules sess).list .urr

/-- The URR in a slot. -/
def urr (slot : Nat) : SessUrr :=
  ⟨slot, (s.upf.pfcpState sess).id .urr slot, (s.upf.pfcpState sess).rule .urr slot⟩

def setAccs (accs : Nat → UpfSessUrrAcc) : TimedState :=
  { s with accs := update s.accs sess accs }

def setPfcp (pfcp : PfcpState) : TimedState := { s with upf := s.upf.setPfcpState sess pfcp }

end TimedState

/-- What the requests of the SMF do to the URRs of a session: a PDR asks for a URR, a URR is
written, updated or removed, or all rules of the session are cleared, as they are when a request
is refused. -/
inductive UrrCall
  | findOrAdd (id : UInt32)
  | create (ie : UrrIe)
  | update (ie : UrrIe)
  | remove (ie : RuleIdIe)
  | clear
  deriving DecidableEq

def UrrCall.run : UrrCall → Handler Unit
  | .findOrAdd id => do
    let _ ← urrFindOrAdd id
  | .create ie => do
    let _ ← handleCreateUrr ie
  | .update ie => do
    let _ ← handleUpdateUrr ie
  | .remove ie => handleRemoveUrr ie
  | .clear => sessClear

/-- A timer that ends does not run any more. -/
def UpfSessUrrAcc.stop (kind : UrrTimerKind) (acc : UpfSessUrrAcc) : UpfSessUrrAcc :=
  { acc with
    timer := update acc.timer kind
      ((acc.timer kind).map fun timer => { timer with running := false }) }

/-- `upf_sess_urr_acc_remove_all` -/
def UpfSessUrrAcc.removeTimers (acc : UpfSessUrrAcc) : UpfSessUrrAcc :=
  { acc with timer := fun _ => none }

/-- A session is added or removed, a request works on the URRs of a session, the timers of a
URR that has been created are set up, a URR that a PDR points to counts a packet, a timer ends,
or something else happens to the UPF. -/
inductive TimedEvent
  | add (sess : Nat)
  | call (sess : Nat) (call : UrrCall)
  | setup (env : UrrAccEnv) (sess slot : Nat)
  | packet (env : UrrAccEnv) (sess slot : Nat) (size : UInt64) (isUplink : Bool)
  | timer (env : UrrAccEnv) (sess index : Nat) (kind : UrrTimerKind)
  | remove (sess : Nat)
  | elsewhere (upf : UpfState)

inductive TimedStep : TimedState → TimedEvent → TimedState → Prop
  | add {s sess} {rules : PfcpSess} : rules.list .urr = [] →
      TimedStep s (.add sess)
        { upf := { s.upf with rules := update s.upf.rules sess rules }
          accs := update s.accs sess fun _ => {} }
  | call {s sess call result pfcp} :
      UrrCall.run call (s.upf.pfcpState sess) = .ok (result, pfcp) →
      TimedStep s (.call sess call) (s.setPfcp sess pfcp)
  | setup {s env sess slot accs} : slot ∈ s.liveUrrs sess →
      bit (s.urr sess slot).rule.measInfo istm →
      onUrrAcc (s.urr sess slot) (fun acc => (acc.timersSetup env (s.urr sess slot)).map ((), ·))
        (s.accs sess) = .ok ((), accs) →
      TimedStep s (.setup env sess slot) (s.setAccs sess accs)
  | packet {s env sess slot size isUplink sent accs} :
      onUrrAcc (s.urr sess slot) (fun acc => acc.add env (s.urr sess slot) size isUplink)
        (s.accs sess) = .ok (sent, accs) →
      TimedStep s (.packet env sess slot size isUplink) (s.setAccs sess accs)
  | timer {s env sess index kind slot sent accs} :
      (s.accs sess index).timer kind = some ⟨slot, true⟩ → slot ∈ s.liveUrrs sess →
      onUrrAcc (s.urr sess slot) (fun acc => acc.timersCb env (s.urr sess slot))
        (update (s.accs sess) index ((s.accs sess index).stop kind)) = .ok (sent, accs) →
      TimedStep s (.timer env sess index kind) (s.setAccs sess accs)
  | remove {s sess result pfcp} : sessClear (s.upf.pfcpState sess) = .ok (result, pfcp) →
      TimedStep s (.remove sess)
        ((s.setPfcp sess pfcp).setAccs sess fun index => (s.accs sess index).removeTimers)
  | elsewhere {s upf} :
      (∀ sess, (upf.rules sess).list .urr = s.liveUrrs sess) →
      TimedStep s (.elsewhere upf) { s with upf }

/-- A UPF without a session. -/
def timedSystem : System TimedState TimedEvent where
  init s := s.accs = fun _ _ => {}
  step := TimedStep

/-! ## Properties -/

/-- The running timers of an accumulator have been made for URRs among these slots. -/
def TimersIn (live : List Nat) (acc : UpfSessUrrAcc) : Prop :=
  ∀ kind slot, acc.timer kind = some ⟨slot, true⟩ → slot ∈ live

/-- Each timer that runs points to a URR of the session that it belongs to. -/
def TimersSafe (s : TimedState) : Prop :=
  ∀ sess index, TimersIn (s.liveUrrs sess) (s.accs sess index)

/-- No timer of the session runs for the URR in a slot. -/
def NoTimerFor (s : TimedState) (sess slot : Nat) : Prop :=
  ∀ index kind, (s.accs sess index).timer kind ≠ some ⟨slot, true⟩

/-- A timer that is started is that of a URR among these slots, be it one that is there already
or a new one. -/
def StartsLive (live : List Nat) (urr : SessUrr) (acc : UpfSessUrrAcc) (kind : UrrTimerKind) : Prop :=
  match acc.timer kind with
  | some timer => timer.urr ∈ live
  | none => urr.slot ∈ live

/-- All timers that a set-up starts are those of URRs among these slots. -/
def SetupLive (live : List Nat) (urr : SessUrr) (acc : UpfSessUrrAcc) : Prop :=
  ∀ kind, urr.asks kind → 0 < urr.duration kind → StartsLive live urr acc kind

/-- A packet makes a limit of a URR be reached. -/
def ReachesLimit (urr : SessUrr) (size : UInt64) (acc : UpfSessUrrAcc) : Prop :=
  urr.reachesVolumeQuota (acc.unreportedOctets + size) ||
    urr.reachesVolumeThreshold (acc.unreportedOctets + size)

/-- A URR is removed only if no timer runs for it, and the timers of an accumulator are set up
only if those that are there already are those of URRs of the session. -/
def TimersHeeded (s : TimedState) (event : TimedEvent) : Prop :=
  match event with
  | .call sess (.remove ie) => ∀ id, ie.id = some id →
      ∀ slot, (s.upf.pfcpState sess).find .urr id = some slot → NoTimerFor s sess slot
  | .call sess .clear => ∀ slot, NoTimerFor s sess slot
  | .setup _ sess slot =>
      SetupLive (s.liveUrrs sess) (s.urr sess slot) (s.accs sess (s.urr sess slot).index)
  | .packet _ sess slot size _ =>
      ReachesLimit (s.urr sess slot) size (s.accs sess (s.urr sess slot).index) →
      SetupLive (s.liveUrrs sess) (s.urr sess slot) (s.accs sess (s.urr sess slot).index)
  | .timer _ sess index kind => ∀ slot, (s.accs sess index).timer kind = some ⟨slot, true⟩ →
      SetupLive (s.liveUrrs sess) (s.urr sess slot) (s.accs sess (s.urr sess slot).index)
  | _ => True

/-! ## Set-ups -/

namespace TimersIn

variable {env : UrrAccEnv} {urr : SessUrr} {acc acc' : UpfSessUrrAcc} {live : List Nat}
  {kind : UrrTimerKind} {state state' : Nat × UpfSessUrrAcc}
  {result : Option UsageReport × UpfSessUrrAcc}

theorem setupTimer (h : TimersIn live state.2) (hstart : StartsLive live urr state.2 kind)
    (hrun : UpfSessUrrAcc.setupTimer urr kind state = .ok state') :
    TimersIn live state'.2 ∧
      ∀ other, StartsLive live urr state.2 other → StartsLive live urr state'.2 other := by
  have hupdate {slot : Nat} (hslot : slot ∈ live)
      (htimer : state'.2.timer = update state.2.timer kind (some ⟨slot, true⟩)) :
      TimersIn live state'.2 ∧
        ∀ other, StartsLive live urr state.2 other → StartsLive live urr state'.2 other := by
    constructor
    · intro other slot' hother
      rw [htimer] at hother
      by_cases heq : other = kind
      · rw [heq, update_self] at hother
        cases hother
        exact hslot
      · rw [update_of_ne heq] at hother
        exact h other slot' hother
    · intro other hlive
      unfold StartsLive at hlive ⊢
      rw [htimer]
      by_cases heq : other = kind
      · rw [heq, update_self]
        exact hslot
      · rwa [update_of_ne heq]
  unfold UpfSessUrrAcc.setupTimer at hrun
  unfold StartsLive at hstart
  dsimp only at hrun
  split at hrun
  · next timer htimer =>
    rw [htimer] at hstart
    obtain rfl := Except.ok.inj hrun
    exact hupdate hstart rfl
  · next htimer =>
    rw [htimer] at hstart
    split at hrun
    · cases hrun
    · obtain rfl := Except.ok.inj hrun
      exact hupdate hstart rfl

theorem setupWanted (h : TimersIn live state.2) (hsetup : SetupLive live urr state.2)
    (hrun : UpfSessUrrAcc.setupWanted urr kind (UpfSessUrrAcc.setupTimer urr kind) state =
      .ok state') : TimersIn live state'.2 ∧ SetupLive live urr state'.2 := by
  unfold UpfSessUrrAcc.setupWanted at hrun
  split at hrun
  · next hwanted =>
    obtain ⟨hin, hstart⟩ := h.setupTimer (hsetup kind hwanted.1 hwanted.2) hrun
    exact ⟨hin, fun other hasks hduration => hstart other (hsetup other hasks hduration)⟩
  · obtain rfl := Except.ok.inj hrun
    exact ⟨h, hsetup⟩

theorem timersSetup (h : TimersIn live acc) (hsetup : SetupLive live urr acc)
    (hrun : acc.timersSetup env urr = .ok acc') : TimersIn live acc' := by
  unfold UpfSessUrrAcc.timersSetup at hrun
  obtain ⟨first, hfirst, hrun⟩ := Fallible.bind_eq_ok.mp hrun
  obtain ⟨second, hsecond, hrun⟩ := Fallible.bind_eq_ok.mp hrun
  obtain ⟨third, hthird, hrun⟩ := Fallible.bind_eq_ok.mp hrun
  obtain rfl := Except.ok.inj hrun
  have hstart : TimersIn live { acc with timeStart := ogsTimeToNtp32 (env.now 3) } := h
  obtain ⟨hin, hlive⟩ := hstart.setupWanted hsetup hfirst
  obtain ⟨hin, hlive⟩ := hin.setupWanted hlive hsecond
  exact (hin.setupWanted hlive hthird).1

theorem sendReport (h : TimersIn live acc) (hsetup : SetupLive live urr acc)
    {result : UsageReport × UpfSessUrrAcc} (hrun : acc.sendReport env urr = .ok result) :
    TimersIn live result.2 := by
  obtain ⟨-, hrun⟩ := UpfSessUrrAcc.sendReport_eq_ok hrun
  have hreport : TimersIn live (acc.report env urr).2 := h
  exact hreport.timersSetup hsetup hrun

theorem add (h : TimersIn live acc) {size : UInt64} {isUplink : Bool}
    (hsetup : ReachesLimit urr size acc → SetupLive live urr acc)
    (hrun : acc.add env urr size isUplink = .ok result) : TimersIn live result.2 := by
  have hcount : TimersIn live (acc.count env size isUplink) := h
  have hvol : (acc.count env size isUplink).unreportedOctets = acc.unreportedOctets + size :=
    add_sub_right_comm _ _ _
  unfold UpfSessUrrAcc.add at hrun
  dsimp only at hrun
  rw [hvol] at hrun
  split at hrun
  · next hreached =>
    obtain ⟨sent, hsent, hrun⟩ := Fallible.bind_eq_ok.mp hrun
    obtain rfl := Except.ok.inj hrun
    have hlive : SetupLive live urr (acc.count env size isUplink) := hsetup hreached
    exact hcount.sendReport hlive hsent
  · obtain rfl := Except.ok.inj hrun
    exact hcount

theorem timersCb (h : TimersIn live acc) (hsetup : SetupLive live urr acc)
    (hrun : acc.timersCb env urr = .ok result) : TimersIn live result.2 := by
  unfold UpfSessUrrAcc.timersCb at hrun
  split at hrun
  · obtain ⟨sent, hsent, hrun⟩ := Fallible.bind_eq_ok.mp hrun
    obtain rfl := Except.ok.inj hrun
    exact h.sendReport hsetup hsent
  · obtain ⟨acc', hdone, hrun⟩ := Fallible.bind_eq_ok.mp hrun
    obtain rfl := Except.ok.inj hrun
    exact h.timersSetup hsetup hdone

theorem stop (h : TimersIn live acc) (kind : UrrTimerKind) : TimersIn live (acc.stop kind) := by
  intro other slot htimer
  unfold UpfSessUrrAcc.stop at htimer
  dsimp only at htimer
  by_cases heq : other = kind
  · rw [heq, update_self] at htimer
    obtain ⟨timer, -, hstopped⟩ := Option.map_eq_some_iff.mp htimer
    cases hstopped
  · rw [update_of_ne heq] at htimer
    exact h other slot htimer

/-- One accumulator changes. -/
theorem update {accs : Nat → UpfSessUrrAcc} (h : ∀ index, TimersIn live (accs index)) (index : Nat)
    (hacc : TimersIn live acc) (other : Nat) :
    TimersIn live (update accs index acc other) := by
  by_cases heq : other = index
  · rw [heq, update_self]
    exact hacc
  · rw [update_of_ne heq]
    exact h other

end TimersIn

/-- A timer that does not run any more still has its URR. -/
theorem SetupLive.stop {live : List Nat} {urr : SessUrr} {acc : UpfSessUrrAcc}
    (h : SetupLive live urr acc) (kind : UrrTimerKind) : SetupLive live urr (acc.stop kind) := by
  intro other hasks hduration
  have hstart := h other hasks hduration
  unfold StartsLive UpfSessUrrAcc.stop at *
  dsimp only
  by_cases heq : other = kind
  · subst heq
    rw [update_self]
    cases htimer : acc.timer other with
    | none => simpa only [htimer, Option.map_none] using hstart
    | some timer => simpa only [htimer, Option.map_some] using hstart
  · rwa [update_of_ne heq]

/-! ## Handlers -/

/-- What a handler writes takes no URR from a session. -/
theorem mem_urr_of_write {st st' : PfcpState} {slot : Nat} (h : Write st st')
    (hslot : slot ∈ st.list .urr) : slot ∈ st'.list .urr := by
  cases h with
  | rule => exact hslot
  | setId => exact hslot
  | beside h => rwa [PfcpState.list, h.list]
  | @add kind =>
    unfold PfcpState.add
    split
    · exact hslot
    · split
      · exact hslot
      · by_cases hkind : kind = .urr
        · subst hkind
          exact List.mem_append_left _ hslot
        · simpa [PfcpState.list, PfcpState.setList, PfcpState.setEntry, PfcpState.setIdPool,
            PfcpState.setPool, PfcpState.setTable, Ne.symm hkind] using hslot

/-- A URR is removed if there is one with the ID. -/
theorem handleRemoveUrr_cases {ie : RuleIdIe} {st pfcp : PfcpState} {result : Except Refusal Unit}
    (h : handleRemoveUrr ie st = .ok (result, pfcp)) :
    pfcp = st ∨ ∃ id slot, ie.id = some id ∧ st.find .urr id = some slot ∧
      pfcp.list .urr = (st.list .urr).erase slot := by
  rcases handleRemove_cases h with rfl | ⟨id, slot, hid, hfind, hremoved⟩
  · exact .inl rfl
  · cases hremoved
    exact .inr ⟨id, slot, hid, hfind, rfl⟩

/-! ## Runs -/

theorem liveUrrs_setPfcp (s : TimedState) (sess : Nat) (pfcp : PfcpState) :
    (s.setPfcp sess pfcp).liveUrrs = update s.liveUrrs sess (pfcp.list .urr) := by
  ext other
  by_cases heq : other = sess
  · subst heq
    simp [TimedState.liveUrrs, TimedState.setPfcp, UpfState.setPfcpState, PfcpState.list]
  · simp [TimedState.liveUrrs, TimedState.setPfcp, UpfState.setPfcpState, heq]

namespace TimersSafe

variable {s : TimedState} {sess : Nat} {pfcp : PfcpState}

/-- The accumulators of one session change. -/
theorem setAccs (h : TimersSafe s) {accs : Nat → UpfSessUrrAcc}
    (haccs : ∀ index, TimersIn (s.liveUrrs sess) (accs index)) : TimersSafe (s.setAccs sess accs) := by
  intro other index
  change TimersIn (s.liveUrrs other) (update s.accs sess accs other index)
  by_cases heq : other = sess
  · subst heq
    rw [update_self]
    exact haccs index
  · rw [update_of_ne heq]
    exact h other index

/-- The rules of one session change, with its running timers on URRs that it still has. -/
theorem setPfcp (h : TimersSafe s)
    (hpfcp : ∀ index, TimersIn (pfcp.list .urr) (s.accs sess index)) :
    TimersSafe (s.setPfcp sess pfcp) := by
  intro other index
  rw [liveUrrs_setPfcp]
  by_cases heq : other = sess
  · subst heq
    rw [update_self]
    exact hpfcp index
  · rw [update_of_ne heq]
    exact h other index

theorem keeps {α : Type} {x : Handler α} (h : TimersSafe s) (hx : Along Write Negative x)
    {result : Except Refusal α} (hrun : x (s.upf.pfcpState sess) = .ok (result, pfcp)) :
    TimersSafe (s.setPfcp sess pfcp) :=
  h.setPfcp fun index kind slot htimer =>
    hx.keeps (fun _ _ hwrite hslot => mem_urr_of_write hwrite hslot) hrun (h sess index kind slot htimer)

theorem call (h : TimersSafe s) {call : UrrCall} (hheeded : TimersHeeded s (.call sess call))
    {result : Except Refusal Unit} (hrun : call.run (s.upf.pfcpState sess) = .ok (result, pfcp)) :
    TimersSafe (s.setPfcp sess pfcp) := by
  cases call with
  | findOrAdd id => exact h.keeps (.bind fun _ => inferInstance) hrun
  | create ie => exact h.keeps (.bind fun _ => inferInstance) hrun
  | update ie => exact h.keeps (.bind fun _ => inferInstance) hrun
  | clear =>
    apply h.setPfcp
    intro index kind slot htimer
    exact absurd htimer (hheeded slot index kind)
  | remove ie =>
    apply h.setPfcp
    intro index kind slot htimer
    have hlive := h sess index kind slot htimer
    rcases handleRemoveUrr_cases hrun with rfl | ⟨id, removed, hid, hfind, hlist⟩
    · exact hlive
    · have hne : slot ≠ removed := by
        rintro rfl
        exact hheeded id hid slot hfind index kind htimer
      rw [hlist]
      exact (List.mem_erase_of_ne hne).mpr hlive

theorem step {t : TimedState} {event : TimedEvent} (h : TimersSafe s) (hheeded : TimersHeeded s event)
    (hstep : TimedStep s event t) : TimersSafe t := by
  cases hstep with
  | @add sess rules hrules =>
    intro other index kind slot htimer
    by_cases heq : other = sess
    · simp only [heq, update_self] at htimer
      cases htimer
    · simp only [update_of_ne heq] at htimer
      simpa only [TimedState.liveUrrs, update_of_ne heq] using h other index kind slot htimer
  | call hrun => exact h.call hheeded hrun
  | setup _ _ hrun =>
    obtain ⟨acc, hmap, rfl⟩ := onUrrAcc_eq_ok hrun
    obtain ⟨_, hsetup, hpair⟩ := Fallible.map_eq_ok.mp hmap
    obtain ⟨-, rfl⟩ := Prod.ext_iff.mp hpair
    exact h.setAccs (.update (h _) _ ((h _ _).timersSetup hheeded hsetup))
  | packet hrun =>
    obtain ⟨acc, hadd, rfl⟩ := onUrrAcc_eq_ok hrun
    exact h.setAccs (.update (h _) _ ((h _ _).add hheeded hadd))
  | @timer env sess index kind slot sent accs htimer _ hrun =>
    obtain ⟨acc, hcb, rfl⟩ := onUrrAcc_eq_ok hrun
    have hstopped := TimersIn.update (h sess) index ((h sess index).stop kind)
    have hsetup : SetupLive (s.liveUrrs sess) (s.urr sess slot)
        (update (s.accs sess) index ((s.accs sess index).stop kind)
          (s.urr sess slot).index) := by
      have hlive := hheeded slot htimer
      by_cases heq : (s.urr sess slot).index = index
      · rw [heq, update_self]
        rw [heq] at hlive
        exact hlive.stop kind
      · rwa [update_of_ne heq]
    exact h.setAccs (.update hstopped _ ((hstopped _).timersCb hsetup hcb))
  | @remove sess result pfcp hrun =>
    intro other index kind slot htimer
    by_cases heq : other = sess
    · simp only [heq, TimedState.setAccs, update_self] at htimer
      cases htimer
    · have hother : (s.setPfcp sess pfcp).liveUrrs other = s.liveUrrs other := by
        rw [liveUrrs_setPfcp, update_of_ne heq]
      simp only [TimedState.setAccs, update_of_ne heq] at htimer
      have hlive := h other index kind slot htimer
      rwa [← hother] at hlive
  | elsewhere hupf =>
    intro sess index kind slot htimer
    have hlive := h sess index kind slot htimer
    rwa [← hupf sess] at hlive

end TimersSafe

/-- In a run in which no URR is removed while a timer runs for it, and no timer is started again
for a URR that has been removed, each timer that runs points to a URR of its session. -/
theorem timersSafe_of_heeded {events : List TimedEvent} {s : TimedState}
    (h : Run timedSystem TimersHeeded events s) : TimersSafe s := by
  apply h.invariant
  · rintro s hinit sess index kind slot htimer
    rw [hinit] at htimer
    cases htimer
  · intro s event t hsafe hheeded hstep
    exact hsafe.step hheeded hstep

/-! ## A session with a timer -/

namespace TimedState

/-- The first session behind a call that returns. -/
def afterCall (call : UrrCall) (s : TimedState) : TimedState :=
  match call.run (s.upf.pfcpState 0) with
  | .ok (_, pfcp) => s.setPfcp 0 pfcp
  | .error _ => s

/-- The first session behind a set-up that returns. -/
def afterSetup (env : UrrAccEnv) (slot : Nat) (s : TimedState) : TimedState :=
  match onUrrAcc (s.urr 0 slot) (fun acc => (acc.timersSetup env (s.urr 0 slot)).map ((), ·))
    (s.accs 0) with
  | .ok (_, accs) => s.setAccs 0 accs
  | .error _ => s

variable {s : TimedState}

theorem step_afterCall {call : UrrCall} (h : (call.run (s.upf.pfcpState 0)).isOk = true) :
    TimedStep s (.call 0 call) (s.afterCall call) := by
  unfold afterCall
  cases hrun : call.run (s.upf.pfcpState 0) with
  | error fault =>
    rw [hrun] at h
    cases h
  | ok result => exact .call hrun

theorem step_afterSetup {env : UrrAccEnv} {slot : Nat} (hlive : slot ∈ s.liveUrrs 0)
    (histm : bit (s.urr 0 slot).rule.measInfo istm)
    (h : (onUrrAcc (s.urr 0 slot) (fun acc => (acc.timersSetup env (s.urr 0 slot)).map ((), ·))
      (s.accs 0)).isOk = true) : TimedStep s (.setup env 0 slot) (s.afterSetup env slot) := by
  unfold afterSetup
  cases hrun : onUrrAcc (s.urr 0 slot)
      (fun acc => (acc.timersSetup env (s.urr 0 slot)).map ((), ·)) (s.accs 0) with
  | error fault =>
    rw [hrun] at h
    cases h
  | ok result => exact .setup hlive histm hrun

end TimedState

/-- A Create URR that asks for a report behind each minute. -/
def minuteUrr : UrrIe where
  urrId := some 1
  measurementMethod := some measurementMethodDuration
  reportingTriggers := some 0x040000
  timeThreshold := some 60
  measurementInformation := some [istm]

def timerEnv : UrrAccEnv := ⟨fun _ => 1700000000000000, 3, true⟩

/-- A session with a URR. -/
def minuteCreated : TimedState :=
  (TimedState.afterCall (.findOrAdd 1) { upf := freshUpf }).afterCall (.create minuteUrr)

/-- A session with a URR of which the timer runs. -/
def minuteRuns : TimedState := minuteCreated.afterSetup timerEnv 0

theorem run_minuteRuns {P : TimedState → TimedEvent → Prop}
    (hfind : P { upf := freshUpf } (.call 0 (.findOrAdd 1)))
    (hcreate : P (TimedState.afterCall (.findOrAdd 1) { upf := freshUpf })
      (.call 0 (.create minuteUrr)))
    (hsetup : P minuteCreated (.setup timerEnv 0 0)) :
    Run timedSystem P
      [.call 0 (.findOrAdd 1), .call 0 (.create minuteUrr), .setup timerEnv 0 0] minuteRuns := by
  have hstart : Run timedSystem P [] { upf := freshUpf } := .nil rfl
  have hfound := hstart.snoc hfind (TimedState.step_afterCall (by decide))
  have hcreated := hfound.snoc hcreate (TimedState.step_afterCall (by decide))
  exact hcreated.snoc hsetup
    (TimedState.step_afterSetup (by decide) (by decide) (by decide))

/-- The timer of a URR that is there points to it. -/
theorem timersSafe_minute : TimersSafe minuteRuns := by
  apply timersSafe_of_heeded (run_minuteRuns trivial trivial ?_)
  intro kind _ _
  have hnone : (minuteCreated.accs 0 (minuteCreated.urr 0 0).index).timer kind = none := by
    cases kind <;> rfl
  have hlive : 0 ∈ minuteCreated.liveUrrs 0 := by decide
  rw [StartsLive, hnone]
  exact hlive

/-- A URR is removed while its timer runs. -/
theorem timer_of_removed :
    Run timedSystem unrestricted
        ([.call 0 (.findOrAdd 1), .call 0 (.create minuteUrr), .setup timerEnv 0 0] ++
          [.call 0 (.remove ⟨some 1⟩)]) (minuteRuns.afterCall (.remove ⟨some 1⟩)) ∧
      ¬TimersSafe (minuteRuns.afterCall (.remove ⟨some 1⟩)) := by
  constructor
  · exact (run_minuteRuns trivial trivial trivial).snoc trivial
      (TimedState.step_afterCall (by decide))
  · intro hsafe
    have htimer : ((minuteRuns.afterCall (.remove ⟨some 1⟩)).accs 0 0).timer .timeThreshold =
        some ⟨0, true⟩ := by decide
    have hgone : 0 ∉ (minuteRuns.afterCall (.remove ⟨some 1⟩)).liveUrrs 0 := by decide
    exact hgone (hsafe 0 0 .timeThreshold 0 htimer)

end Quicup.Open5gs
