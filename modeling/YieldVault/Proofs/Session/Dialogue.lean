import Mathlib.Data.List.Nodup
import YieldVault.Proofs.Session.Publish
import YieldVault.Session.Flow

/-!
# What a wallet is asked

A connection attempt against a wallet that answers every question as it likes, whatever it has said before. At
each stage it is known what was said so far. So the questions are a beginning of five fixed ones, each has its
reason in the answers before it, and the end of the attempt goes by the wallet's last word on its chain.
-/

namespace YieldVault

structure Exchange where
  call : WalletCall
  reply : WalletReply

namespace Exchange

def reported? : Exchange → Option Nat
  | ⟨.chainId, .chainId (.ok id)⟩ => some id
  | _ => none

/-- The chain that the wallet must be on: it says so, or it has just switched there. -/
def evidence? : Exchange → Option Nat
  | ⟨.chainId, .chainId (.ok id)⟩ => some id
  | ⟨.switchChain id, .done (.ok _)⟩ => some id
  | _ => none

end Exchange

/-- A wallet that answers each question as it likes, by all that was said before. -/
structure Respondent where
  accounts : List Exchange → Except WalletFailure String
  chainId : List Exchange → Except WalletFailure Nat
  switchChain : List Exchange → Nat → Except WalletFailure Unit
  addChain : List Exchange → Chain → Except WalletFailure Unit

def Respondent.reply (p : Respondent) (past : List Exchange) : WalletCall → WalletReply
  | .accounts => .account (p.accounts past)
  | .chainId => .chainId (p.chainId past)
  | .switchChain id => .done (p.switchChain past id)
  | .addChain chain => .done (p.addChain past chain)

theorem WalletFailure.toConnectFailure_ne_wrongNetwork (e : WalletFailure) (expected actual : Nat) :
    e.toConnectFailure ≠ .wrongNetwork expected actual := by
  cases e <;> simp [toConnectFailure]

namespace Authorization

/-- All that an answer can lead to at each stage. -/
inductive Leads (chain : Chain) : Authorization → WalletReply → Result → Prop
  | named (account : String) : Leads chain .askAccount (.account (.ok account)) (.ask (.askChain account))
  | nameless (e : WalletFailure) : Leads chain .askAccount (.account (.error e)) (.denied e.toConnectFailure)
  | there (account : String) : Leads chain (.askChain account) (.chainId (.ok chain.id)) (.granted account)
  | elsewhere (account : String) {id : Nat} (h : id ≠ chain.id) :
      Leads chain (.askChain account) (.chainId (.ok id)) (.ask (.askSwitch account id))
  | nowhere (account : String) (e : WalletFailure) :
      Leads chain (.askChain account) (.chainId (.error e)) (.denied e.toConnectFailure)
  | switched (account : String) (current : Nat) :
      Leads chain (.askSwitch account current) (.done (.ok ())) (.granted account)
  | unknown (account : String) (current id : Nat) :
      Leads chain (.askSwitch account current) (.done (.error (.unrecognizedChain id)))
        (.ask (.askAdd account))
  | gone (account : String) (current : Nat) :
      Leads chain (.askSwitch account current) (.done (.error .unavailable)) (.denied .noProvider)
  | refused (account : String) (current : Nat) {e : WalletFailure} (h : ∀ id, e ≠ .unrecognizedChain id)
      (h' : e ≠ .unavailable) :
      Leads chain (.askSwitch account current) (.done (.error e)) (.denied (.wrongNetwork chain.id current))
  | added (account : String) : Leads chain (.askAdd account) (.done (.ok ())) (.ask (.askAgain account))
  | unadded (account : String) (e : WalletFailure) :
      Leads chain (.askAdd account) (.done (.error e)) (.denied e.toConnectFailure)
  | thereNow (account : String) : Leads chain (.askAgain account) (.chainId (.ok chain.id)) (.granted account)
  | elsewhereStill (account : String) {id : Nat} (h : id ≠ chain.id) :
      Leads chain (.askAgain account) (.chainId (.ok id)) (.denied (.wrongNetwork chain.id id))
  | nowhereNow (account : String) (e : WalletFailure) :
      Leads chain (.askAgain account) (.chainId (.error e)) (.denied e.toConnectFailure)

variable {chain : Chain} {stage next : Authorization} {past : List Exchange} {r : WalletReply}
  {result : Result}

theorem leads_of_step (h : stage.step chain r = some result) : Leads chain stage r result := by
  unfold step at h
  split at h
  case h_3 account current =>
    split at h
    · rename_i hc
      cases h
      exact hc ▸ .there account
    · cases h
      exact .elsewhere account ‹_›
  case h_11 account now =>
    split at h
    · rename_i hc
      cases h
      exact hc ▸ .thereNow account
    · cases h
      exact .elsewhereStill account ‹_›
  case h_8 account current e hid hgone =>
    cases h
    exact .refused account current hid hgone
  all_goals cases h <;> constructor

theorem rank_lt_of_step (h : stage.step chain r = some (.ask next)) : next.rank < stage.rank := by
  cases leads_of_step h <;> simp [rank]

/-- From `stage` on, the answers come from `p`: all that was said, and the account or the
failure at the end. -/
def pursue (chain : Chain) (p : Respondent) (stage : Authorization) (past : List Exchange) :
    List Exchange × Option (Except ConnectFailure String) :=
  let e : Exchange := ⟨stage.call chain, p.reply past (stage.call chain)⟩
  match _h : stage.step chain e.reply with
  | some (.ask next) => pursue chain p next (past ++ [e])
  | some (.granted account) => (past ++ [e], some (.ok account))
  | some (.denied failure) => (past ++ [e], some (.error failure))
  | none => (past ++ [e], none)
termination_by stage.rank
decreasing_by exact rank_lt_of_step _h

def authorize (chain : Chain) (p : Respondent) : List Exchange × Option (Except ConnectFailure String) :=
  pursue chain p .askAccount []

/-- A stage that can be reached, with all that was said before. -/
inductive Heard (chain : Chain) : Authorization → List Exchange → Prop
  | nothing : Heard chain .askAccount []
  | next {stage next : Authorization} {past : List Exchange} {r : WalletReply} (h : Heard chain stage past)
      (hr : stage.step chain r = some (.ask next)) : Heard chain next (past ++ [⟨stage.call chain, r⟩])

/-- All that was said in an attempt that is over, with what came of it. -/
inductive Over (chain : Chain) : List Exchange → Except ConnectFailure String → Prop
  | granted {stage : Authorization} {past : List Exchange} {r : WalletReply} {account : String}
      (h : Heard chain stage past) (hr : stage.step chain r = some (.granted account)) :
      Over chain (past ++ [⟨stage.call chain, r⟩]) (.ok account)
  | denied {stage : Authorization} {past : List Exchange} {r : WalletReply} {failure : ConnectFailure}
      (h : Heard chain stage past) (hr : stage.step chain r = some (.denied failure)) :
      Over chain (past ++ [⟨stage.call chain, r⟩]) (.error failure)

/-- Only an answer to another question leads nowhere, and the respondent gives none. -/
theorem step_reply_ne_none (chain : Chain) (p : Respondent) (stage : Authorization) (past : List Exchange) :
    stage.step chain (p.reply past (stage.call chain)) ≠ none := by
  cases stage with
  | askAccount => cases h : p.accounts past <;> simp [call, Respondent.reply, step, h]
  | askChain account => cases h : p.chainId past <;> simp [call, Respondent.reply, step, h]
  | askSwitch account current =>
    cases h : p.switchChain past chain.id with
    | ok _ => simp [call, Respondent.reply, step, h]
    | error e => cases e <;> simp [call, Respondent.reply, step, h]
  | askAdd account => cases h : p.addChain past chain <;> simp [call, Respondent.reply, step, h]
  | askAgain account => cases h : p.chainId past <;> simp [call, Respondent.reply, step, h]

theorem Heard.pursue_over (p : Respondent) (h : Heard chain stage past) :
    ∃ es result, pursue chain p stage past = (es, some result) ∧ Over chain es result := by
  -- the induction follows the questions, and each keeps what was heard
  fun_induction pursue chain p stage past with
  | case1 stage past e next hr ih => exact ih (h.next hr)
  | case2 stage past e account hr => exact ⟨_, _, rfl, .granted h hr⟩
  | case3 stage past e failure hr => exact ⟨_, _, rfl, .denied h hr⟩
  | case4 stage past e hr => exact absurd hr (step_reply_ne_none chain p stage past)

/-! ## What was said at each stage -/

def greeting (account : String) : Exchange := ⟨.accounts, .account (.ok account)⟩

def report (id : Nat) : Exchange := ⟨.chainId, .chainId (.ok id)⟩

def puzzlement (chain : Chain) (id : Nat) : Exchange :=
  ⟨.switchChain chain.id, .done (.error (.unrecognizedChain id))⟩

def Told (chain : Chain) : Authorization → List Exchange → Prop
  | askAccount, past => past = []
  | askChain account, past => past = [greeting account]
  | askSwitch account current, past => current ≠ chain.id ∧ past = [greeting account, report current]
  | askAdd account, past => ∃ current id, current ≠ chain.id ∧
    past = [greeting account, report current, puzzlement chain id]
  | askAgain account, past => ∃ current id, current ≠ chain.id ∧
    past = [greeting account, report current, puzzlement chain id, ⟨.addChain chain, .done (.ok ())⟩]

theorem Told.step (h : Told chain stage past) (hr : stage.step chain r = some (.ask next)) :
    Told chain next (past ++ [⟨stage.call chain, r⟩]) := by
  cases leads_of_step hr with
  | named account =>
    subst h
    rfl
  | elsewhere account hid =>
    subst h
    exact ⟨hid, rfl⟩
  | unknown account current id =>
    obtain ⟨hid, rfl⟩ := h
    exact ⟨current, id, hid, rfl⟩
  | added account =>
    obtain ⟨current, id, hid, rfl⟩ := h
    exact ⟨current, id, hid, rfl⟩

theorem Heard.told (h : Heard chain stage past) : Told chain stage past := by
  induction h with
  | nothing => rfl
  | next _ hr ih => exact ih.step hr

/-! ## The end -/

variable {es : List Exchange} {account : String}

theorem Over.greeted (h : Over chain es (.ok account)) : greeting account ∈ es := by
  obtain ⟨heard, hr⟩ := h
  have told := heard.told
  cases leads_of_step hr with
  | there =>
    subst told
    simp
  | switched account current =>
    obtain ⟨-, rfl⟩ := told
    simp
  | thereNow =>
    obtain ⟨current, id, -, rfl⟩ := told
    simp

theorem Over.evidence (h : Over chain es (.ok account)) :
    (es.filterMap Exchange.evidence?).getLast? = some chain.id := by
  obtain ⟨heard, hr⟩ := h
  rw [List.filterMap_append, List.getLast?_append]
  cases leads_of_step hr <;> rfl

/-- The second number is what the wallet has told last. -/
theorem Over.reported {expected actual : Nat} (h : Over chain es (.error (.wrongNetwork expected actual))) :
    expected = chain.id ∧ (es.filterMap Exchange.reported?).getLast? = some actual ∧ actual ≠ expected := by
  obtain - | ⟨heard, hr⟩ := h
  have told := heard.told
  -- only two ends speak of the network, all others are failures of the wallet
  generalize hf : ConnectFailure.wrongNetwork expected actual = failure at hr
  cases leads_of_step hr with
  | refused account current =>
    cases hf
    obtain ⟨hid, rfl⟩ := told
    exact ⟨rfl, rfl, hid⟩
  | elsewhereStill account hid =>
    cases hf
    obtain ⟨_, _, -, rfl⟩ := told
    exact ⟨rfl, rfl, hid⟩
  | gone => cases hf
  | nameless e => exact absurd hf.symm (e.toConnectFailure_ne_wrongNetwork expected actual)
  | nowhere _ e => exact absurd hf.symm (e.toConnectFailure_ne_wrongNetwork expected actual)
  | unadded _ e => exact absurd hf.symm (e.toConnectFailure_ne_wrongNetwork expected actual)
  | nowhereNow _ e => exact absurd hf.symm (e.toConnectFailure_ne_wrongNetwork expected actual)

/-! ## Why each question is asked -/

/-- Every question was asked at a stage that came of what was said before it. -/
def Reasoned (chain : Chain) (es : List Exchange) : Prop :=
  ∀ before e, before ++ [e] <+: es → ∃ stage, Heard chain stage before ∧ e.call = stage.call chain

theorem Reasoned.snoc (hp : Reasoned chain past) (h : Heard chain stage past) (r : WalletReply) :
    Reasoned chain (past ++ [⟨stage.call chain, r⟩]) := by
  intro before e he
  rcases List.prefix_concat_iff.mp he with he | he
  · obtain ⟨rfl, hx⟩ := List.append_inj' he rfl
    obtain rfl := List.singleton_inj.mp hx
    exact ⟨stage, h, rfl⟩
  · exact hp before e he

theorem Heard.reasoned (h : Heard chain stage past) : Reasoned chain past := by
  induction h with
  | nothing => intro before e he; simp at he
  | next h _ ih => exact ih.snoc h _

theorem Over.reasoned {result : Except ConnectFailure String} (h : Over chain es result) :
    Reasoned chain es := by
  cases h with
  | granted heard => exact heard.reasoned.snoc heard _
  | denied heard => exact heard.reasoned.snoc heard _

theorem Heard.switch_due (h : Heard chain stage past) {id : Nat} (hs : .switchChain id = stage.call chain) :
    id = chain.id ∧ ∃ current, (past.filterMap Exchange.reported?).getLast? = some current ∧
      current ≠ chain.id := by
  have told := h.told
  cases stage with
  | askSwitch account current =>
    cases hs
    obtain ⟨hid, rfl⟩ := told
    exact ⟨rfl, current, rfl, hid⟩
  | _ => cases hs

theorem Heard.add_due (h : Heard chain stage past) {c : Chain} (hs : .addChain c = stage.call chain) :
    c = chain ∧ ∃ id, past.getLast? = some (puzzlement chain id) := by
  have told := h.told
  cases stage with
  | askAdd account =>
    cases hs
    obtain ⟨_, id, -, rfl⟩ := told
    exact ⟨rfl, id, rfl⟩
  | _ => cases hs

def questions (chain : Chain) : List WalletCall :=
  [.accounts, .chainId, .switchChain chain.id, .addChain chain, .chainId]

theorem Heard.calls_prefix (h : Heard chain stage past) :
    past.map Exchange.call ++ [stage.call chain] <+: questions chain := by
  have told := h.told
  cases stage with
  | askAccount =>
    subst told
    exact ⟨_, rfl⟩
  | askChain account =>
    subst told
    exact ⟨_, rfl⟩
  | askSwitch account current =>
    obtain ⟨-, rfl⟩ := told
    exact ⟨_, rfl⟩
  | askAdd account =>
    obtain ⟨_, _, -, rfl⟩ := told
    exact ⟨_, rfl⟩
  | askAgain account =>
    obtain ⟨_, _, -, rfl⟩ := told
    exact ⟨[], rfl⟩

theorem Over.calls_prefix {result : Except ConnectFailure String} (h : Over chain es result) :
    es.map Exchange.call <+: questions chain := by
  cases h with
  | granted heard => simpa using heard.calls_prefix
  | denied heard => simpa using heard.calls_prefix

theorem names_questions (chain : Chain) : (questions chain).map WalletCall.name =
    ["request_accounts", "current_chain_id", "switch_chain", "add_chain", "current_chain_id"] := rfl

theorem count_questions_le (chain : Chain) (name : String) :
    ((questions chain).map WalletCall.name).count name ≤ if name = "current_chain_id" then 2 else 1 := by
  rw [names_questions]
  by_cases hc : name = "current_chain_id"
  · subst hc
    decide
  · have others :
        (["request_accounts", "current_chain_id", "switch_chain", "add_chain", "current_chain_id"].filter
        (· != "current_chain_id")).Nodup := by decide
    have once := List.nodup_iff_count_le_one.mp others name
    rw [List.count_filter (by simpa using hc)] at once
    rwa [if_neg hc]

end Authorization

/-! ## The session's attempt -/

/-- The answer of an exchange wakes the flow, if there is one that waits. -/
def Session.listen (now : Moment) (x : Session × Progress) (e : Exchange) : Session × Progress :=
  match x.2 with
  | .waiting f => x.1.resume f (.reply (.wallet e.reply)) now
  | _ => x

def Connection.Move.ofResult : Except ConnectFailure String → Connection.Move
  | .ok account => .authorized account
  | .error failure => .rejected failure

namespace Authorization

theorem Heard.foldl_listen {s : Session} {t : Token} {stage : Authorization} {past : List Exchange}
    (h : Heard s.settings.chain stage past) (ht : s.tokens.isCancelled t = false) (now : Moment) :
    past.foldl (Session.listen now) (s, .waiting (.connecting .askAccount t)) =
      (s, .waiting (.connecting stage t)) := by
  induction h with
  | nothing => rfl
  | next _ hr ih =>
    rw [List.foldl_append, ih]
    simp [Session.listen, Session.resume, Session.resumeConnecting, ht, hr]

theorem Over.foldl_listen {s : Session} {t : Token} {es : List Exchange}
    {result : Except ConnectFailure String} (h : Over s.settings.chain es result)
    (ht : s.tokens.isCancelled t = false) (now : Moment) :
    es.foldl (Session.listen now) (s, .waiting (.connecting .askAccount t)) = s.enter (.ofResult result) := by
  cases h with
  | granted heard hr =>
    rw [List.foldl_append, heard.foldl_listen ht]
    simp [Session.listen, Session.resume, Session.resumeConnecting, ht, hr, Connection.Move.ofResult]
  | denied heard hr =>
    rw [List.foldl_append, heard.foldl_listen ht]
    simp [Session.listen, Session.resume, Session.resumeConnecting, ht, hr, Connection.Move.ofResult]

end Authorization

end YieldVault
