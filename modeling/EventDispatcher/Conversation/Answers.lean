import EventDispatcher.Conversation.Messenger

/-!
# What a message is answered with

A dispatcher that has the system matches, and whose other matches call functions of the user,
answers a message at most once: `ALIVE` with `ABSOLUTELY`, `HELP` with `COMMANDS`, and a message
with `UNKNOWN` when its command is neither one of the system nor one that `get_commands()` tells
(`answered_dispatch`).
-/

namespace EventDispatcher.Conversation

open Lib

variable {V α : Type}

/-! ### The answers -/

/-- A command of the system matches. -/
def IsSystem (command : Str) : Prop := command ∈ systemCommands.map fun c => c.1.toList

instance decidableIsSystem (command : Str) : Decidable (IsSystem command) :=
  decidable_of_iff ((systemCommands.map fun c => c.1.toList).contains command = true)
    List.contains_iff_mem

/-- The messages that answer one with the fields `f`. -/
inductive Reply (p : Program V) (f : Fields) (commands : StringSet) (m : Message) : Prop
  /-- `msg_alive()` -/
  | absolutely (now : Str) (hcommand : f.command = "ALIVE".toList)
    (h : absolutely p.P.S now { toFields := f } = .ok m)
  /-- `msg_help()` -/
  | commands (list : StringSet) (hcommand : f.command = "HELP".toList) (hlist : list.keys ≠ [])
    (h : commandsMessage p.P.S p.J list (some { toFields := f }) = .ok m)
  /-- `msg_reply_with_unknown()` -/
  | unknown (hsystem : ¬ IsSystem f.command) (hcommands : f.command ∉ commands.keys)
    (h : unknown p.P.S { toFields := f } = .ok m)

/-- Whether a message that was sent is an answer. -/
def Sent.isReply (s : Sent) : Bool :=
  match s.origin with
  | .user => false
  | .reply _ _ => true

/-- Only the user sent messages. -/
def UserSends (c c' : Messenger V) : Prop :=
  ∃ new, c'.sent = c.sent ++ new ∧ ∀ s ∈ new, s.isReply = false

/-- What the functions of the user may do to a message: `K f f'` when they may turn the fields `f`
into `f'`.  They leave the command. -/
structure Keeping (K : Fields → Fields → Prop) : Prop where
  /-- They may do nothing. -/
  refl : ∀ f, K f f
  /-- They are called one after the other. -/
  trans : ∀ {f f' f''}, K f f' → K f' f'' → K f f''
  /-- They leave the command. -/
  command : ∀ {f f'}, K f f' → f'.command = f.command

/-- The user sent messages, and at most one is an answer to the one with the fields `f`, as the
functions of the user left it; there is none unless `Ended`. -/
def Answered (K : Fields → Fields → Prop) (p : Program V) (d : Dispatcher) (f : Fields)
    (Ended : Prop) (c c' : Messenger V) : Prop :=
  UserSends c c' ∨ (Ended ∧ ∃ f' before m, K f f' ∧ UserSends c before ∧
    Reply p f' (commandsOf d) m ∧ c'.sent = before.sent ++ [⟨m, .reply f' (commandsOf d)⟩])

lemma UserSends.refl (c : Messenger V) : UserSends c c :=
  ⟨[], (List.append_nil _).symm, fun _ h => absurd h List.not_mem_nil⟩

lemma UserSends.trans {c c₁ c₂ : Messenger V} (h : UserSends c c₁) (h' : UserSends c₁ c₂) :
    UserSends c c₂ := by
  obtain ⟨new, hnew, hall⟩ := h
  obtain ⟨new', hnew', hall'⟩ := h'
  refine ⟨new ++ new', by rw [hnew', hnew, List.append_assoc], fun s hs => ?_⟩
  exact (List.mem_append.mp hs).elim (hall s) (hall' s)

/-- Nothing else of the messenger plays a role. -/
lemma UserSends.of_sent_eq {c c₁ c₂ : Messenger V} (h : UserSends c c₁)
    (hsent : c₂.sent = c₁.sent) : UserSends c c₂ := by
  rw [UserSends, hsent]
  exact h

namespace Answered

variable {K : Fields → Fields → Prop} {p : Program V} {d : Dispatcher} {f f' : Fields}
  {Ended Ended' : Prop} {c c₁ c' : Messenger V}

lemma of_userSends (h : UserSends c c₁) (h' : Answered K p d f Ended c₁ c') :
    Answered K p d f Ended c c' := by
  rcases h' with h' | ⟨hended, f', before, m, hf, hbefore, hreply, hsent⟩
  · exact .inl (h.trans h')
  · exact .inr ⟨hended, f', before, m, hf, h.trans hbefore, hreply, hsent⟩

/-- Without an end there is no answer. -/
lemma userSends (h : Answered K p d f Ended c c') (hended : ¬ Ended) : UserSends c c' :=
  h.resolve_right fun h => hended h.1

lemma mono (h : Answered K p d f Ended c c') (himp : Ended → Ended') :
    Answered K p d f Ended' c c' := h.imp id fun h => ⟨himp h.1, h.2⟩

/-- The user changed the message before. -/
lemma of_kept (hK : Keeping K) (hf : K f f') (h : Answered K p d f' Ended c c') :
    Answered K p d f Ended c c' := by
  rcases h with h | ⟨hended, f'', before, m, hf', hrest⟩
  · exact .inl h
  · exact .inr ⟨hended, f'', before, m, hK.trans hf hf', hrest⟩

end Answered

/-! ### The functions -/

lemma userSends_sendMessage (c : Messenger V) (message : Message) :
    UserSends c (c.sendMessage message .user).2 := by
  rw [Messenger.sendMessage]
  split_ifs
  · exact ⟨_, rfl, fun s hs => by rw [List.mem_singleton.mp hs]; rfl⟩
  · exact .refl c

lemma userSends_sendAll (c : Messenger V) (messages : List Message) :
    UserSends c (c.sendAll messages) := by
  induction messages generalizing c with
  | nil => exact .refl c
  | cons message messages ih => exact (userSends_sendMessage c message).trans (ih _)

lemma userSends_messenger (r : UserRun V α) (c : Messenger V) : UserSends c (r.messenger c) :=
  (userSends_sendAll c r.sends).of_sent_eq rfl

lemma userSends_toResult (r : MessageRun V α) (w : World (Messenger V)) :
    UserSends w.user (r.toResult w).user := userSends_messenger r.toUserRun w.user

namespace Program

variable {K : Fields → Fields → Prop} (p : Program V)

/-- An answer is the one message that is sent, if it is sent. -/
lemma answered_sends (hK : Keeping K) (d : Dispatcher) (msg : Message) (c : Messenger V)
    (calls : List EnvironmentCall) {r : Except Exception Message} {Ended : Prop} (hended : Ended)
    (hr : ∀ m, r = .ok m → Reply p msg.toFields (commandsOf d) m) :
    Answered K p d msg.toFields Ended c (sends (answer d msg) msg c calls r).user := by
  cases r with
  | error e => exact .inl (.refl c)
  | ok m =>
    change Answered K p d msg.toFields Ended c (c.sendMessage m (answer d msg)).2
    rw [Messenger.sendMessage]
    split_ifs
    · exact .inr ⟨hended, _, c, m, hK.refl _, .refl c, hr m rfl, rfl⟩
    · exact .inl (.refl c)

lemma userSends_findCommands (d : Dispatcher) (w : World (Messenger V)) :
    UserSends w.user ((p.findCommands d w).messenger w.user) := userSends_messenger _ _

lemma answered_sendCommands (hK : Keeping K) (d : Dispatcher) (msg : Message)
    (w : World (Messenger V)) {Ended : Prop} (hended : Ended) :
    Answered K p d msg.toFields Ended w.user (p.sendCommands d (some msg) w).user := by
  rw [sendCommands]
  by_cases hcommand : msg.command = "HELP".toList
  · rw [if_neg (by simpa using hcommand)]
    have huser := p.userSends_findCommands d w
    simp only
    split
    · exact .inl huser
    · rename_i list hlist
      by_cases hkeys : list.keys = []
      · rw [if_pos hkeys]
        exact .inl huser
      · rw [if_neg hkeys]
        refine Answered.of_userSends huser (p.answered_sends hK d msg _ _ hended fun m hm => ?_)
        exact .commands list hcommand hkeys hm
  · rw [if_pos (by simpa using hcommand)]
    exact .inl (.refl w.user)

lemma userSends_msgReady (msg : Message) (w : World (Messenger V)) :
    UserSends w.user (p.msgReady msg w).user := by
  rw [msgReady]
  simp only
  split
  · exact .refl w.user
  · rename_i myAddress _
    have huser := userSends_toResult
      (p.U.ready msg { w with user := { w.user with myAddress } })
      { w with user := { w.user with myAddress } }
    split
    · exact huser
    · exact huser.of_sent_eq rfl

/-- **What a function of the connection sends**, when it is called for its own command. -/
lemma answered_run (hK : Keeping K) (d : Dispatcher) (msg : Message) (w : World (Messenger V))
    (f : SystemFunction) {Ended : Prop} (hended : Ended)
    (halive : f = .msgAlive → msg.command = "ALIVE".toList)
    (hunknown : f = .msgReplyWithUnknown →
      ¬ IsSystem msg.command ∧ msg.command ∉ (commandsOf d).keys) :
    Answered K p d msg.toFields Ended w.user (p.run d msg w f).user := by
  have hrefl : Answered K p d msg.toFields Ended w.user w.user := .inl (.refl w.user)
  cases f with
  | msgAlive =>
    exact p.answered_sends hK d msg w.user [] hended fun m hm =>
      .absolutely w.user.now (halive rfl) hm
  | msgHelp => exact p.answered_sendCommands hK d msg w hended
  | msgLogUnknown => exact hrefl
  | msgLeak => exact hrefl
  | msgLogRotate => exact hrefl
  | msgServiceUnavailable => exact hrefl
  | msgQuitting => exact .inl (userSends_messenger _ _)
  | msgReady => exact .inl (p.userSends_msgReady msg w)
  | msgRestart => exact .inl (userSends_toResult _ _)
  | msgStop => exact .inl (userSends_messenger _ _)
  | msgReplyWithUnknown =>
    exact p.answered_sends hK d msg w.user [] hended fun m hm =>
      .unknown (hunknown rfl).1 (hunknown rfl).2 hm

end Program

/-! ### The commands of a dispatcher -/

/-- The match is a one to one match for the command. -/
def Lists (command : Str) (m : DispatcherMatch) : Prop :=
  m.expr = some command ∧ (m.func = .oneToOneMatch ∨ m.func = .oneToOneCallbackMatch)

lemma mem_getCommand {r : Bool × StringSet} {m : DispatcherMatch} {command : Str} :
    command ∈ (getCommand r m).2.keys ↔ command ∈ r.2.keys ∨ Lists command m := by
  rw [getCommand, Lists]
  cases m.expr with
  | none => simp
  | some expr =>
    dsimp only
    split_ifs with hfunc
    · rw [SortedMap.mem_keys_insert, or_comm, and_iff_left hfunc, Option.some.injEq,
        eq_comm (a := command)]
    · simp [hfunc]

/-- **`get_commands()` tells the commands of the one to one matches.** -/
lemma mem_commandsOf {d : Dispatcher} {command : Str} :
    command ∈ (commandsOf d).keys ↔ ∃ m ∈ d.list, Lists command m := by
  have hfold : ∀ (l : List DispatcherMatch) (r : Bool × StringSet),
      command ∈ (l.foldl getCommand r).2.keys ↔
        command ∈ r.2.keys ∨ ∃ m ∈ l, Lists command m := by
    intro l
    induction l with
    | nil => simp
    | cons m l ih =>
      intro r
      rw [List.foldl_cons, ih, mem_getCommand, or_assoc, List.exists_mem_cons_iff]
  rw [commandsOf, getCommands, hfold]
  simp [SortedMap.keys]

/-- A match calls a function of the user, or is the system match of a function of the
connection. -/
def IsEntry (m : DispatcherMatch) : Prop :=
  ∀ id f, m.callback = some id → systemFunction? id = some f →
    m.func = .oneToOneMatch ∧ ∃ c, (c, f) ∈ systemCommands ∧ m.expr = some c.toList

/-- The matches of the dispatcher call functions of the user, or are system matches. -/
structure Plain (d : Dispatcher) : Prop where
  /-- The matches. -/
  entries : ∀ m ∈ d.list, IsEntry m
  /-- The catch-all answers with `UNKNOWN`, or calls a function of the user. -/
  catchAll : ∀ id f, d.catchAll.callback = some id → systemFunction? id = some f →
    f = .msgReplyWithUnknown
  /-- The catch-all takes every message. -/
  always : d.catchAll.callback.isSome = true → d.catchAll.func = .alwaysMatch

/-- The dispatcher also has all the system matches, which have no tag. -/
structure Serves (d : Dispatcher) : Prop extends Plain d where
  /-- The system matches. -/
  system : ∀ c, IsSystem c → ∃ m ∈ d.list, Lists c m ∧ m.tag = 0

/-! ### One dispatch -/

/-- The functions of the user leave of a message what `K` says, and do not take its mark away. -/
structure UserFunctions.Keeps (K : Fields → Fields → Prop) (U : UserFunctions V) : Prop where
  /-- The match functions. -/
  matchFunc : ∀ id m msg w, K msg.toFields (U.matchFunc id m msg w).message.toFields ∧
    (msg.processed = true → (U.matchFunc id m msg w).message.processed = true)
  /-- The callbacks. -/
  callback : ∀ id msg w, K msg.toFields (U.callback id msg w).message.toFields ∧
    (msg.processed = true → (U.callback id msg w).message.processed = true)

/-- What a step of the dispatch leaves: it goes on with the same message, or it ends and may have
answered. -/
structure Ran (K : Fields → Fields → Prop) (p : Program V) (d : Dispatcher) (msg : Message)
    (w : World (Messenger V)) (e : Executed (Messenger V)) : Prop where
  /-- What the functions of the user left of the message. -/
  fields : e.result = .ok false → K msg.toFields e.message.toFields
  /-- Its mark stays. -/
  processed : e.result = .ok false → msg.processed = true → e.message.processed = true
  /-- The messages that were sent. -/
  sends : Answered K p d msg.toFields (e.result ≠ .ok false) w.user e.world.user

namespace Ran

variable {K : Fields → Fields → Prop} {p : Program V} {d : Dispatcher} {msg : Message}
  {w w' : World (Messenger V)} {e : Executed (Messenger V)}

lemma unchanged (hK : Keeping K) (hw : UserSends w.user w'.user) (r : Except Exception Bool) :
    Ran K p d msg w ⟨r, msg, w', []⟩ := ⟨fun _ => hK.refl _, fun _ h => h, .inl hw⟩

lemma error (hw : UserSends w.user w'.user) (x : Exception) (m : Message) :
    Ran K p d msg w ⟨.error x, m, w', []⟩ :=
  ⟨fun h => absurd h (by simp), fun h => absurd h (by simp), .inl hw⟩

/-- What the checks recorded plays no role. -/
lemma withChecks (h : Ran K p d msg w e) (checks : List (Check (Messenger V))) :
    Ran K p d msg w { e with checks := checks } := ⟨h.fields, h.processed, h.sends⟩

/-- A step after one that goes on. -/
lemma of_userSends {msg' : Message} (hK : Keeping K) (hw : UserSends w.user w'.user)
    (hfields : K msg.toFields msg'.toFields)
    (hprocessed : msg.processed = true → msg'.processed = true) (h : Ran K p d msg' w' e) :
    Ran K p d msg w e :=
  ⟨fun hr => hK.trans hfields (h.fields hr), fun hr hp => h.processed hr (hprocessed hp),
    (h.sends.of_userSends hw).of_kept hK hfields⟩

end Ran

variable {K : Fields → Fields → Prop} {p : Program V} {d : Dispatcher}

/-- What a system function may be called for. -/
def Permits (d : Dispatcher) (msg : Message) (f : SystemFunction) : Prop :=
  (f = .msgAlive → msg.command = "ALIVE".toList) ∧
    (f = .msgReplyWithUnknown → ¬ IsSystem msg.command ∧ msg.command ∉ (commandsOf d).keys)

lemma ran_deliver (hK : Keeping K) (hkeeps : p.U.Keeps K) {callback : ℕ} {answer : Bool}
    (parameters : List MessageParameter) (msg : Message) (w : World (Messenger V))
    (h : ∀ f, systemFunction? callback = some f → answer = true ∧ Permits d msg f) :
    Ran K p d msg w
      (DispatcherMatch.deliver p.P (p.code d) callback answer parameters msg w) := by
  rw [DispatcherMatch.deliver]
  by_cases hcheck : msg.checkParameters p.P.T parameters = true
  · rw [if_pos hcheck]
    cases hsystem : systemFunction? callback with
    | some f =>
      have hcall : (p.code d).callback callback msg w = p.run d msg w f := by
        simp only [Program.code, hsystem]
      obtain ⟨rfl, halive, hunknown⟩ := h f hsystem
      rw [hcall]
      have hresult : (p.run d msg w f).result.map (fun _ => true) ≠ .ok false := by
        cases (p.run d msg w f).result with
        | error x => simp [Except.map]
        | ok u => simp [Except.map]
      exact ⟨fun hr => absurd hr hresult, fun hr => absurd hr hresult,
        p.answered_run hK d msg w f hresult halive hunknown⟩
    | none =>
      have hcall : (p.code d).callback callback msg w =
          (p.U.callback callback msg w).toResult w := by
        simp only [Program.code, hsystem]
      obtain ⟨hfields, hprocessed⟩ := hkeeps.callback callback msg w
      rw [hcall]
      exact ⟨fun _ => hfields, fun _ => hprocessed, .inl (userSends_toResult _ w)⟩
  · rw [if_neg hcheck]
    split_ifs
    · split
      · exact .unchanged hK (.refl w.user) _
      · exact .error (.refl w.user) _ _
    · exact .unchanged hK (.refl w.user) _

/-- A match that selects the message. -/
lemma ran_executeMatch (hK : Keeping K) (hkeeps : p.U.Keeps K) (m : DispatcherMatch)
    {answer : Bool} (msg : Message) (w : World (Messenger V))
    (h : ∀ id f, m.callback = some id → systemFunction? id = some f →
      answer = true ∧ Permits d msg f) :
    Ran K p d msg w (m.executeMatch p.P (p.code d) answer msg w).2 ∧
      ((m.executeMatch p.P (p.code d) answer msg w).2.result = .ok false →
        (m.executeMatch p.P (p.code d) answer msg w).2.message.processed = true) := by
  rw [DispatcherMatch.executeMatch]
  cases hcallback : m.callback with
  | none => exact ⟨.unchanged hK (.refl w.user) _, fun hr => absurd hr (by simp)⟩
  | some id =>
    have huser : (m.definition p.P msg.markProcessed.command w).2.user = w.user := by
      rw [DispatcherMatch.definition]
      cases m.messageDefinition <;> rfl
    dsimp only
    rcases hdefinition : m.definition p.P msg.markProcessed.command w with ⟨r, w'⟩
    rw [hdefinition] at huser
    have hsends : UserSends w.user w'.user := huser ▸ .refl _
    cases r with
    | error x => exact ⟨.error hsends _ _, fun hr => absurd hr (by simp)⟩
    | ok own =>
      have hran := ran_deliver hK hkeeps own.parameters msg.markProcessed w' (h id · hcallback)
      refine ⟨.of_userSends hK hsends ?_ (fun _ => ?_) (hran.withChecks _), fun hr => ?_⟩
      · exact hK.refl msg.toFields
      · rfl
      · exact hran.processed hr rfl

lemma callMatch_kept (hK : Keeping K) (hkeeps : p.U.Keeps K) (m : DispatcherMatch) (msg : Message)
    (w : World (Messenger V)) :
    UserSends w.user (m.callMatch p.P (p.code d) msg w).2.2.user ∧
      K msg.toFields (m.callMatch p.P (p.code d) msg w).2.1.toFields ∧
      (msg.processed = true → (m.callMatch p.P (p.code d) msg w).2.1.processed = true) := by
  rw [DispatcherMatch.callMatch]
  split
  case h_5 id _ => exact ⟨userSends_toResult _ w, hkeeps.matchFunc id m msg w⟩
  all_goals exact ⟨.refl w.user, hK.refl _, id⟩

/-- `msg_alive()` is for `ALIVE`, and no system match answers with `UNKNOWN`. -/
lemma function_systemCommands : ∀ c ∈ systemCommands,
    (c.2 = .msgAlive → c.1 = "ALIVE") ∧ c.2 ≠ .msgReplyWithUnknown := by
  decide

/-- A system match calls its function for its command only, and ends the dispatch. -/
lemma IsEntry.permits {m : DispatcherMatch} (hm : IsEntry m) {msg msg' : Message}
    {w w' : World (Messenger V)} {answer : MatchResult}
    (hcall : m.callMatch p.P (p.code d) msg w = (.ok answer, msg', w'))
    (hanswer : answer ≠ .matchFalse) {id : ℕ} {f : SystemFunction} (hid : m.callback = some id)
    (hf : systemFunction? id = some f) : answer = .matchTrue ∧ Permits d msg' f := by
  obtain ⟨hfunc, c, hc, hexpr⟩ := hm id f hid hf
  rw [DispatcherMatch.callMatch, hfunc] at hcall
  simp only [Prod.mk.injEq, Except.ok.injEq, DispatcherMatch.oneToOneMatch, hexpr] at hcall
  obtain ⟨rfl, rfl, -⟩ := hcall
  by_cases hcommand : c.toList = msg.command
  · obtain ⟨halive, hunknown⟩ := function_systemCommands (c, f) hc
    rw [if_pos hcommand]
    refine ⟨rfl, fun h => ?_, fun h => absurd h hunknown⟩
    rw [← hcommand]
    exact congrArg String.toList (halive h)
  · rw [if_neg hcommand] at hanswer
    exact absurd rfl hanswer

/-- One match of the list. -/
lemma ran_execute (hK : Keeping K) (hkeeps : p.U.Keeps K) {m : DispatcherMatch} (hm : IsEntry m)
    (msg : Message) (w : World (Messenger V)) :
    Ran K p d msg w (m.execute p.P (p.code d) msg w).2 := by
  obtain ⟨hsends, hfields, hprocessed⟩ := callMatch_kept (d := d) hK hkeeps m msg w
  rw [DispatcherMatch.execute]
  rcases hcall : m.callMatch p.P (p.code d) msg w with ⟨r, msg', w'⟩
  rw [hcall] at hsends hfields hprocessed
  refine Ran.of_userSends hK hsends hfields hprocessed ?_
  cases r with
  | error x => exact .error (.refl w'.user) x _
  | ok answer =>
    cases answer with
    | matchFalse => exact .unchanged hK (.refl w'.user) _
    | matchTrue =>
      exact (ran_executeMatch hK hkeeps m msg' w' fun id f hid hf =>
        ⟨rfl, (hm.permits hcall (by simp) hid hf).2⟩).1
    | matchCallback =>
      exact (ran_executeMatch hK hkeeps m msg' w' fun id f hid hf =>
        absurd (hm.permits hcall (by simp) hid hf).1 (by simp)).1

/-- A one to one match that knows the message takes it. -/
lemma processed_execute (hK : Keeping K) (hkeeps : p.U.Keeps K) {m : DispatcherMatch}
    (hm : IsEntry m) {msg : Message} (hlists : Lists msg.command m) (w : World (Messenger V))
    (h : (m.execute p.P (p.code d) msg w).2.result = .ok false) :
    (m.execute p.P (p.code d) msg w).2.message.processed = true := by
  obtain ⟨hexpr, hfunc⟩ := hlists
  have hcallback : ∀ {answer : MatchResult} {w' : World (Messenger V)},
      m.callMatch p.P (p.code d) msg w = (.ok answer, msg, w') → answer ≠ .matchFalse →
        ∀ {id f}, m.callback = some id → systemFunction? id = some f →
          answer = .matchTrue ∧ Permits d msg f :=
    fun hcall hanswer => hm.permits hcall hanswer
  rw [DispatcherMatch.execute] at h ⊢
  rcases hfunc with hfunc | hfunc
  · have hcall : m.callMatch p.P (p.code d) msg w = (.ok .matchTrue, msg, w) := by
      simp [DispatcherMatch.callMatch, hfunc, DispatcherMatch.oneToOneMatch, hexpr]
    rw [hcall] at h ⊢
    exact (ran_executeMatch hK hkeeps m msg w fun id f hid hf =>
      ⟨rfl, (hcallback hcall (by simp) hid hf).2⟩).2 h
  · have hcall : m.callMatch p.P (p.code d) msg w = (.ok .matchCallback, msg, w) := by
      simp [DispatcherMatch.callMatch, hfunc, DispatcherMatch.oneToOneCallbackMatch, hexpr]
    rw [hcall] at h ⊢
    exact (ran_executeMatch hK hkeeps m msg w fun id f hid hf =>
      absurd (hcallback hcall (by simp) hid hf).1 (by simp)).2 h

/-- The matches in order; a message that one of them knows is marked. -/
lemma ran_executeAll (hK : Keeping K) (hkeeps : p.U.Keeps K) {l : List DispatcherMatch}
    (hl : ∀ m ∈ l, IsEntry m) (msg : Message) (w : World (Messenger V)) :
    Ran K p d msg w (Dispatcher.executeAll p.P (p.code d) l msg w).2 ∧
      ((∃ m ∈ l, Lists msg.command m) →
        (Dispatcher.executeAll p.P (p.code d) l msg w).2.result = .ok false →
        (Dispatcher.executeAll p.P (p.code d) l msg w).2.message.processed = true) := by
  induction l generalizing msg w with
  | nil =>
    exact ⟨.unchanged hK (.refl w.user) _, fun ⟨m, hm, _⟩ => absurd hm List.not_mem_nil⟩
  | cons m l ih =>
    have hran := ran_execute (d := d) hK hkeeps (hl m List.mem_cons_self) msg w
    have hprocessed : Lists msg.command m → _ :=
      processed_execute (d := d) hK hkeeps (hl m List.mem_cons_self)
    rw [Dispatcher.executeAll]
    rcases hexecute : m.execute p.P (p.code d) msg w with ⟨m', e⟩
    rw [hexecute] at hran
    dsimp only
    by_cases hresult : e.result = .ok false
    · obtain ⟨hrest, hlisted⟩ := ih (fun m hm => hl m (List.mem_cons_of_mem _ hm)) e.message e.world
      have hfields := hran.fields hresult
      have hcommand : e.message.command = msg.command := hK.command hfields
      simp only [hresult]
      refine ⟨.of_userSends hK (hran.sends.userSends fun h => h hresult) hfields
        (hran.processed hresult) (hrest.withChecks _), fun hex hr => ?_⟩
      rcases (List.exists_mem_cons_iff ..).mp hex with hm | hex
      · refine hrest.processed hr ?_
        have := hprocessed hm w
        rw [hexecute] at this
        exact this hresult
      · exact hlisted (hcommand ▸ hex) hr
    · split
      · contradiction
      · exact ⟨hran, fun _ hr => absurd hr hresult⟩

/-- **A dispatch answers once at most**, and only when it ends the message. -/
lemma answered_dispatch (hK : Keeping K) (hkeeps : p.U.Keeps K) (hserves : Serves d) (msg : Message)
    (w : World (Messenger V)) :
    Answered K p d msg.toFields ((d.dispatch p.P (p.code d) msg w).2.result ≠ .ok false) w.user
      (d.dispatch p.P (p.code d) msg w).2.world.user := by
  rw [Dispatcher.dispatch]
  have htraced : ∀ {text : Str} {m' : Message},
      (if d.trace then msg.toString p.P.S else .ok ([], msg)) = .ok (text, m') →
        m'.toFields = msg.toFields := by
    intro text m' h
    split_ifs at h
    · rw [Message.toString] at h
      split_ifs at h <;> cases h <;> rfl
    · cases h
      rfl
  split
  · exact .inl (.refl w.user)
  · rename_i text m' hm'
    have hfields := htraced hm'
    obtain ⟨hran, hlisted⟩ := ran_executeAll (d := d) hK hkeeps hserves.entries m' w
    rw [← hfields]
    dsimp only
    rcases hall : Dispatcher.executeAll p.P (p.code d) d.list m' w with ⟨l, e⟩
    rw [hall] at hran hlisted
    rw [Dispatcher.dispatchEnd]
    by_cases hresult : e.result = .ok false
    · have husers : UserSends w.user e.world.user := hran.sends.userSends fun h => h hresult
      simp only [hresult]
      by_cases hprocessed : e.message.processed = true
      · rw [if_pos hprocessed]
        exact .inl husers
      · rw [if_neg hprocessed]
        by_cases hcatch : d.catchAll.callback.isSome = true
        · rw [if_pos hcatch]
          -- no match of the list knows the message
          have hunlisted : ¬ ∃ m ∈ d.list, Lists m'.command m := fun hex =>
            hprocessed (hlisted hex hresult)
          have hcommand : e.message.command = m'.command := hK.command (hran.fields hresult)
          have hcall : d.catchAll.callMatch p.P (p.code d) e.message e.world =
              (.ok .matchTrue, e.message, e.world) := by
            rw [DispatcherMatch.callMatch, hserves.always hcatch]
          have hpermits : ∀ id f, d.catchAll.callback = some id → systemFunction? id = some f →
              true = true ∧ Permits d e.message f := by
            intro id f hid hf
            have hunknown := hserves.catchAll id f hid hf
            refine ⟨rfl, fun h => ?_, fun _ => ?_⟩
            · rw [hunknown] at h
              cases h
            · rw [hcommand, mem_commandsOf]
              refine ⟨fun hs => hunlisted ?_, hunlisted⟩
              obtain ⟨m, hm, hlists, -⟩ := hserves.system _ hs
              exact ⟨m, hm, hlists⟩
          have hmatch := (ran_executeMatch hK hkeeps d.catchAll e.message e.world hpermits).1
          rw [DispatcherMatch.execute, hcall]
          exact (hmatch.sends.of_userSends husers).of_kept hK (hran.fields hresult)
        · rw [if_neg hcatch]
          exact .inl husers
    · split
      · contradiction
      · exact hran.sends

end EventDispatcher.Conversation
