import YieldVault.Proofs.Desk.Grant
import YieldVault.Proofs.Desk.Settings
import YieldVault.Proofs.Session.Dialogue
import YieldVault.Proofs.Simulation.Waiting

/-!
# The network of a connected wallet

A session connects only when the wallet has vouched for the session's chain. What a wallet says of itself need
not be so, but a simulated wallet that nobody else talks to keeps its word: it leaves the chain of a session
no more, and every answer that is still on its way is true when it arrives.
-/

namespace YieldVault

/-- The answer tells that the wallet is on the chain, or that it has done what was asked for. -/
def WalletReply.Vouches (chain : Chain) : WalletReply → Prop
  | .chainId (.ok id) => id = chain.id
  | .done (.ok _) => True
  | _ => False

theorem Authorization.vouches_of_granted {chain : Chain} {stage : Authorization} {r : WalletReply}
    {account : String} (h : stage.step chain r = some (.granted account)) : r.Vouches chain := by
  cases leads_of_step h with
  | there => exact rfl
  | switched => exact trivial
  | thereNow => exact rfl

namespace Simulation

/-! ## The wallet's answers -/

namespace Wallet

variable {chain : Chain}

theorem answer_current {w : Wallet} (h : w.current = chain.id) (stage : Authorization) :
    (w.answer (stage.call chain)).2.current = chain.id := by
  cases stage with
  | askSwitch account current =>
    simp only [Authorization.call, answer]
    split
    · exact h
    · split
      · rfl
      · exact h
  | askAdd account => rfl
  | _ => exact h

theorem answer_vouches {w : Wallet} {stage : Authorization}
    (h : (w.answer (stage.call chain)).1.Vouches chain) :
    (w.answer (stage.call chain)).2.current = chain.id := by
  cases stage with
  | askAccount =>
    simp only [Authorization.call, answer] at h
    cases w.accountFailure <;> exact h.elim
  | askChain account => exact h
  | askSwitch account current =>
    simp only [Authorization.call, answer] at h ⊢
    split at h
    · exact h.elim
    · rename_i hs
      split at h
      · rename_i hk
        rw [if_neg hs, if_pos hk]
      · exact h.elim
  | askAdd account => rfl
  | askAgain account => exact h

end Wallet

theorem World.ask_wallet (world : World) {w : Wallet} (h : world.provider = .simulated w) (q : WalletCall) :
    world.ask (.wallet q) = (⟨w.delayFor q, .reply (.wallet (w.answer q).1)⟩,
      { world with provider := .simulated (w.answer q).2 }) := by
  simp [World.ask, Provider.answer, h, Timed.map]

/-- Only a question to the wallet changes the wallet or is answered by it. -/
theorem World.ask_other (w : World) {c : Call} (h : ∀ q, c ≠ .wallet q) :
    (w.ask c).2.provider = w.provider ∧ ∀ r, (w.ask c).1.answer ≠ .reply (.wallet r) := by
  cases c with
  | wallet q => exact absurd rfl (h q)
  | snapshot account => exact ⟨rfl, fun r hr => by cases hr⟩
  | signature request =>
    refine ⟨rfl, fun r => ?_⟩
    cases hs : w.settlement with
    | simulated d d' e e' => cases e <;> simp [World.ask, Settlement.sign, hs]
    | scripted signatures confirmations => simp [World.ask, Settlement.sign, hs, Timed.map]
  | confirmation signed => exact ⟨rfl, fun r hr => by cases hr⟩

/-! ## A wallet that only the session talks to -/

/-- Where an opened session can get to with a simulated wallet of its own, whatever else happens around it. -/
inductive Tended : Simulation → Prop
  | opened {settings : Settings} {session : Session} (h : Session.open? settings = .ok session)
      {world : World} {wallet : Wallet} (hw : world.provider = .simulated wallet) (moment : Nat → Moment) :
      Tended (ofSession session world moment)
  | started {s : Simulation} (h : Tended s) (e : Errand) : Tended (s.start e).1
  | acted {s : Simulation} (h : Tended s) (a : Action) : Tended (s.act a).1
  | watched {s : Simulation} (h : Tended s) (w : Watch) : Tended { s with desk := s.desk.step (.watch w) }
  | stepped {s s' : Simulation} (h : Tended s) {bound : Option Nat} (hs : s.step? bound = some s') : Tended s'
  | later {s : Simulation} (h : Tended s) (clock : Nat) : Tended { s with clock := clock }
  | elsewhere {s : Simulation} (h : Tended s) {world : World} (hw : world.provider = s.world.provider) :
      Tended { s with world := world }

/-- The wallet `w` is on the session's chain as soon as an answer on its way says so, or an
attempt has connected. -/
structure Faithful (s : Simulation) (w : Wallet) : Prop where
  provider : s.world.provider = .simulated w
  promised : ∀ x ∈ s.waits, ∀ r, x.promise = .reply (.wallet r) → r.Vouches s.settings.chain →
    w.current = s.settings.chain.id
  welcomed : s.desk.Welcomed → w.current = s.settings.chain.id

variable {s : Simulation} {w : Wallet}

theorem Faithful.desk_step (h : s.Faithful w) (step : Desk.Step)
    (hs : ∀ i r now, step = .wake i (.reply (.wallet r)) now → r.Vouches s.settings.chain →
      w.current = s.settings.chain.id) : Faithful { s with desk := s.desk.step step } w := by
  have same : ({ s with desk := s.desk.step step } : Simulation).settings = s.settings :=
    s.desk.step_settings step
  refine ⟨h.provider, ?_, fun hd => ?_⟩
  · rw [same]
    exact h.promised
  · rw [same]
    rcases hd.of_step with hd | ⟨i, r, now, rfl, stage, account, hr⟩
    · exact h.welcomed hd
    · exact hs i r now rfl (Authorization.vouches_of_granted hr)

/-- A new wait, for which the wallet may have moved to the chain. -/
theorem Faithful.wait (h : s.Faithful w) {world : World} {w' : Wallet} (hp : world.provider = .simulated w')
    (stays : w.current = s.settings.chain.id → w'.current = s.settings.chain.id) {x : Waiting}
    (hx : ∀ r, x.promise = .reply (.wallet r) → r.Vouches s.settings.chain →
      w'.current = s.settings.chain.id) :
    Faithful { s with world := world, waits := s.waits ++ [x] } w' := by
  refine ⟨hp, fun y hy r hr hv => ?_, fun hd => stays (h.welcomed hd)⟩
  rcases List.mem_append.mp hy with hy | hy
  · exact stays (h.promised y hy r hr hv)
  · rw [List.mem_singleton] at hy
    subst hy
    exact hx r hr hv

theorem Faithful.ask (h : s.Faithful w) (i : FlowId) (before : Option Nat) :
    ∃ w', (s.ask i before).Faithful w' := by
  cases hf : s.desk.flow? i with
  | none =>
    refine ⟨w, ?_⟩
    unfold Simulation.ask
    rw [hf]
    exact h
  | some f =>
    rw [ask_eq hf]
    by_cases hq : ∃ stage t, f = .connecting stage t
    · obtain ⟨stage, t, rfl⟩ := hq
      have asked := s.world.ask_wallet h.provider (stage.call s.settings.chain)
      refine ⟨_, h.wait (congrArg (·.2.provider) asked) (Wallet.answer_current · stage) fun r hr hv => ?_⟩
      obtain rfl : (w.answer (stage.call s.settings.chain)).1 = r := by
        have hr' := (congrArg (·.1.answer) asked).symm.trans hr
        simpa using hr'
      exact Wallet.answer_vouches hv
    · have hno : ∀ q, f.call s.settings.chain ≠ .wallet q := by
        intro q he
        cases f with
        | connecting stage t => exact hq ⟨stage, t, rfl⟩
        | _ => cases he
      obtain ⟨hp, ha⟩ := s.world.ask_other hno
      exact ⟨w, h.wait (hp.trans h.provider) id fun r hr => absurd hr (ha r)⟩

theorem signal_provider (s : Simulation) (x : Waiting) (e : Wait.End) :
    (s.signal x e).2.provider = s.world.provider := by
  cases e with
  | completed => cases hp : x.promise <;> simp [signal, World.deliver, hp]
  | _ => rfl

theorem promise_of_signal {x : Waiting} {e : Wait.End} {r : WalletReply}
    (h : (s.signal x e).1 = .reply (.wallet r)) : x.promise = .reply (.wallet r) := by
  cases e with
  | completed =>
    cases hp : x.promise with
    | reply r' => simpa [signal, World.deliver, hp] using h
    | signature request => simp [signal, World.deliver, hp] at h
  | _ => cases h

theorem Faithful.finishWait (h : s.Faithful w) {x : Waiting} (hx : x ∈ s.waits) (e : Wait.End) :
    ∃ w', (s.finishWait x e).Faithful w' := by
  refine Faithful.ask (w := w) ?_ _ _
  have told := h.desk_step (.wake x.flow (s.signal x e).1 (s.moment s.clock)) (by
    intro i r now he hv
    obtain ⟨-, hr, -⟩ := Desk.Step.wake.inj he
    exact h.promised x hx r (promise_of_signal hr) hv)
  refine ⟨(s.signal_provider x e).trans h.provider, fun y hy => ?_, told.welcomed⟩
  exact told.promised y (List.mem_filter.mp hy).1

theorem Tended.faithful (h : Tended s) : ∃ w, s.Faithful w := by
  induction h with
  | @opened settings session hs world wallet hw moment =>
    refine ⟨wallet, hw, fun x hx => absurd hx List.not_mem_nil, fun hd => ?_⟩
    cases hd with
    | connected hc =>
      rw [show (ofSession session world moment).desk.session.state =
        .initial from (Session.open?_eq hs).1] at hc
      cases hc
    | reading hf => cases hf
    | ended ho => cases ho
  | started _ e ih =>
    obtain ⟨w, h⟩ := ih
    exact (h.desk_step (.start e) fun i r now he => by cases he).ask _ _
  | acted _ a ih =>
    obtain ⟨w, h⟩ := ih
    exact ⟨w, h.desk_step (.act a) fun i r now he => by cases he⟩
  | watched _ v ih =>
    obtain ⟨w, h⟩ := ih
    exact ⟨w, h.desk_step (.watch v) fun i r now he => by cases he⟩
  | @stepped s _ _ _ hs ih =>
    obtain ⟨w, h⟩ := ih
    obtain ⟨clock, x, hx, e, rfl⟩ := step?_finishes hs
    exact Faithful.finishWait (s := { s with clock := clock }) (w := w)
      ⟨h.provider, h.promised, h.welcomed⟩ hx e
  | later _ clock ih =>
    obtain ⟨w, h⟩ := ih
    exact ⟨w, h.provider, h.promised, h.welcomed⟩
  | elsewhere _ hw ih =>
    obtain ⟨w, h⟩ := ih
    exact ⟨w, hw.trans h.provider, h.promised, h.welcomed⟩

/-- An attempt against any wallet: it ends, with the account that the wallet gave only if the wallet's last
word puts it on the chain, and with a wrong network only if its last word is another chain; what is asked and
why; and the session enters what came of it. With a simulated wallet of its own, a session that is connected
and an attempt that ended so both mean that the wallet is on the chain. -/
theorem network_is_checked :
    (∀ (chain : Chain) (p : Respondent), ∃ es result, Authorization.authorize chain p = (es, some result) ∧
      (∀ account, result = .ok account → ⟨.accounts, .account (.ok account)⟩ ∈ es ∧
        (es.filterMap Exchange.evidence?).getLast? = some chain.id) ∧
      (∀ expected actual, result = .error (.wrongNetwork expected actual) → expected = chain.id ∧
        (es.filterMap Exchange.reported?).getLast? = some actual ∧ actual ≠ expected) ∧
      (∀ before e, before ++ [e] <+: es →
        (∀ id, e.call = .switchChain id → id = chain.id ∧
          ∃ current, (before.filterMap Exchange.reported?).getLast? = some current ∧ current ≠ chain.id) ∧
        ∀ c, e.call = .addChain c → c = chain ∧
          ∃ id, before.getLast? = some ⟨.switchChain chain.id, .done (.error (.unrecognizedChain id))⟩) ∧
      (∀ name, (es.map (·.call.name)).count name ≤ if name = "current_chain_id" then 2 else 1) ∧
      ∀ (s : Session) t now, s.settings.chain = chain → s.tokens.isCancelled t = false →
        es.foldl (Session.listen now) (s, .waiting (.connecting .askAccount t)) =
          s.enter (.ofResult result)) ∧
    ∀ s, Tended s → ∀ address, (s.desk.session.state.connection = .connected address ∨
        ∃ i, s.desk.outcome? i = some (.connected (.ok (.connected address)))) →
      ∃ w, s.world.provider = .simulated w ∧ w.current = s.settings.chain.id := by
  constructor
  · intro chain p
    have start : Authorization.Heard chain .askAccount [] := .nothing
    obtain ⟨es, result, he, done⟩ := start.pursue_over p
    refine ⟨es, result, he, ?_, ?_, fun before e hp => ?_, fun name => ?_, ?_⟩
    · rintro account rfl
      exact ⟨done.greeted, done.evidence⟩
    · rintro expected actual rfl
      exact done.reported
    · obtain ⟨stage, heard, hc⟩ := done.reasoned before e hp
      exact ⟨fun id hs => heard.switch_due (hs.symm.trans hc), fun c hs => heard.add_due (hs.symm.trans hc)⟩
    · have fewer := (done.calls_prefix.sublist.map WalletCall.name).count_le name
      rw [List.map_map] at fewer
      exact Nat.le_trans fewer (Authorization.count_questions_le chain name)
    · rintro s t now rfl ht
      exact done.foldl_listen ht now
  · intro s tended address shown
    obtain ⟨w, faithful⟩ := tended.faithful
    refine ⟨w, faithful.provider, faithful.welcomed ?_⟩
    rcases shown with hc | ⟨i, ho⟩
    · exact .connected hc
    · exact .ended ho

theorem Tended.await (h : Tended s) (i : FlowId) : Tended (s.await i) := by
  have steps : ∀ {s}, Tended s → ∀ bound stop n, Tended (steps bound stop n s) :=
    fun h _ stop n => steps_keeps (fun h hs => h.stepped hs) h stop n
  exact steps (steps h ..) ..

/-- A wallet on another chain that does not know the session's own is asked to connect. -/
def newcomer : Simulation :=
  let wallet := { Wallet.sample with current := 137 }.forgetBase
  let world :=
    ⟨.simulated wallet, .fixed none, .simulated 0 0 none none, fun n => "0xsim" ++ Text.natText n, 0⟩
  ((ofSession Desk.newSession world fun _ => .epoch).start .connect).1.await 0

theorem network_is_checked_newcomer : newcomer.desk.session.state.connection = .connected sampleAccount ∧
    ∃ w, newcomer.world.provider = .simulated w ∧ w.current = newcomer.settings.chain.id := by
  have opened : Session.open? .standard = .ok Desk.newSession := rfl
  have tended : Tended newcomer := ((Tended.opened opened rfl _).started _).await _
  have connected : newcomer.desk.session.state.connection = .connected sampleAccount := by decide +kernel
  exact ⟨connected, network_is_checked.2 newcomer tended sampleAccount (.inl connected)⟩

end Simulation

end YieldVault
