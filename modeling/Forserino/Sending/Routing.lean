import Forserino.Sending.Once

/-! A post over a whole run, with any other events between its request and the
answer to its colour update, and when it is sent once and over the route that it
takes without the rainbow setting.
-/

set_option autoImplicit false

namespace Forserino.Sending

open Forserino.Qt Foundation

namespace SendRequest

theorem plain_open {request : SendRequest} {around : Surroundings} (opened : request.Open around) :
    ∃ outgoing, request.plain around = some outgoing ∧ outgoing.route = around.route ∧
      ∀ line, outgoing = .irc line → line = request.ircLine := by
  unfold plain
  cases taken : around.route with
  | irc => exact ⟨.irc request.ircLine, rfl, rfl, fun line same => (Outgoing.irc.inj same).symm⟩
  | helix =>
    have known := opened taken
    cases request with
    | message channel text => exact ⟨_, if_neg known, rfl, fun line same => nomatch same⟩
    | reply channel text replyId => exact ⟨_, if_neg known, rfl, fun line same => nomatch same⟩

theorem plain_closed {request : SendRequest} {around : Surroundings} (closed : ¬ request.Open around) :
    request.plain around = none := by
  unfold Open at closed
  push Not at closed
  simp only [plain, closed]
  rfl

/-- The success callback sends over IRC to a channel that does not exist. -/
def Strays (caseFold : QString → QString) (request : SendRequest) (settings : Settings)
    (answer : Option (Surroundings × Outcome)) : Prop :=
  match request, answer with
  | .message channel _, some (later, .success) =>
      ¬ request.Uncoloured caseFold settings ∧ ¬ request.Hasty settings ∧ later.route = .irc ∧
        channel.name.startsWith (qs "$") = true
  | _, _ => False

theorem dollar_differs (channel : TwitchChannel) (text : QString)
    (dollar : channel.name.startsWith (qs "$") = true) :
    qs "PRIVMSG #" ++ channel.name ++ qs " :" ++ text ≠ (message channel text).ircLine := by
  rw [ircLine, if_pos dollar]
  intro same
  have lengths := congrArg List.length same
  have before : (qs "PRIVMSG #").length = 9 := rfl
  have after : (qs "PRIVMSG ").length = 8 := rfl
  simp only [List.length_append, QString.mid, List.length_drop, before, after] at lengths
  omega

end SendRequest

namespace TwitchIrcServer

/-! ## Numbers -/

structure Numbered (server : TwitchIrcServer) : Prop where
  sends : ∀ sent ∈ server.sends, sent.1 < server.posts
  updates : ∀ update ∈ server.updates, update.post < server.posts
  once : (server.updates.map (·.post)).Nodup

theorem Numbered.alike {server next : TwitchIrcServer} (numbered : server.Numbered) (alike : server.Alike next) :
    next.Numbered := by
  constructor
  · rw [alike.sends, alike.posts]; exact numbered.sends
  · rw [alike.updates, alike.posts]; exact numbered.updates
  · rw [alike.updates]; exact numbered.once

theorem Numbered.accepts {caseFold : QString → QString} {server next : TwitchIrcServer} {request : SendRequest}
    {color : QString} (numbered : server.Numbered) (accepts : server.Accepts caseFold next request color) :
    next.Numbered := by
  constructor
  · intro sent among
    rw [accepts.sends, List.mem_append, List.mem_map] at among
    rw [accepts.posts]
    rcases among with old | ⟨outgoing, -, rfl⟩
    · exact Nat.lt_succ_of_lt (numbered.sends sent old)
    · exact Nat.lt_succ_self server.posts
  · intro update among
    rw [accepts.updates, List.mem_append] at among
    rw [accepts.posts]
    rcases among with old | fresh
    · exact Nat.lt_succ_of_lt (numbered.updates update old)
    · split at fresh
      · cases fresh
      · rw [List.mem_singleton.mp fresh]
        exact Nat.lt_succ_self server.posts
  · rw [accepts.updates, List.map_append, List.nodup_append']
    refine ⟨numbered.once, ?_, ?_⟩
    · split
      · exact List.nodup_nil
      · exact List.nodup_singleton _
    · intro post old fresh
      obtain ⟨update, among, rfl⟩ := List.mem_map.mp old
      split at fresh
      · cases fresh
      · have same := List.mem_singleton.mp fresh
        exact (numbered.updates update among).ne same

theorem Numbered.emits {server next : TwitchIrcServer} {post : Nat} {outgoing : Option Outgoing}
    (numbered : server.Numbered) (emits : server.Emits next post outgoing none) (old : post < server.posts) :
    next.Numbered := by
  constructor
  · intro sent among
    rw [emits.sends, List.mem_append, List.mem_map] at among
    rw [emits.posts]
    rcases among with before | ⟨outgoing, -, rfl⟩
    · exact numbered.sends sent before
    · exact old
  · rw [emits.updates, emits.posts, Option.toList_none, List.append_nil]; exact numbered.updates
  · rw [emits.updates, Option.toList_none, List.append_nil]; exact numbered.once

/-! ## One event -/

section
variable {hslName : Int → Int → Int → QString} {caseFold : QString → QString}

theorem update_shape (update : ColorUpdate) (base : Settings) : ∃ (request : SendRequest) (settings : Settings),
    update = ⟨update.post, request.channel, request.content, update.color, request.callbacks settings⟩ := by
  obtain ⟨post, channel, message, color, callbacks⟩ := update
  cases callbacks with
  | sentBefore => exact ⟨.message channel message, { base with rainbowMethod := true }, rfl⟩
  | sendBehind => exact ⟨.message channel message, { base with rainbowMethod := false }, rfl⟩
  | replyBehind replyId => exact ⟨.reply channel message replyId, base, rfl⟩

/-- The update of the post is taken out of the flight before its callback runs. -/
def land (server : TwitchIrcServer) (post : Nat) : TwitchIrcServer :=
  { server with updates := server.updates.filter (·.post ≠ post) }

theorem step_answered {server next : TwitchIrcServer} {post : Nat} {outcome : Outcome}
    (taken : server.step hslName caseFold (.answered post outcome) = some next) :
    ∃ update ∈ server.updatesOf post, update.post = post ∧ next = (server.land post).onColorAnswered update outcome := by
  unfold step at taken
  cases found : server.updates.find? (·.post = post) with
  | none => simp [found] at taken
  | some update =>
    have same : update.post = post := by simpa using List.find?_some found
    simp only [found, Option.some.injEq] at taken
    exact ⟨update, List.mem_filter.mpr ⟨List.mem_of_find?_eq_some found, decide_eq_true same⟩, same, taken.symm⟩

theorem step_answered_emits {server next : TwitchIrcServer} {post : Nat} {outcome : Outcome}
    (taken : server.step hslName caseFold (.answered post outcome) = some next) :
    ∃ outgoing, (server.land post).Emits next post outgoing none := by
  obtain ⟨update, -, same, rfl⟩ := step_answered taken
  obtain ⟨request, settings, shape⟩ := update_shape update server.around.settings
  rw [shape, same]
  exact ⟨_, onColorAnswered_emits _ request settings post update.color outcome⟩

theorem Numbered.land {server : TwitchIrcServer} (numbered : server.Numbered) (post : Nat) :
    (server.land post).Numbered := by
  constructor
  · exact numbered.sends
  · intro update among
    exact numbered.updates update (List.mem_filter.mp among).1
  · exact numbered.once.sublist (List.filter_sublist.map _)

theorem Numbered.step {server next : TwitchIrcServer} {e : Event} (numbered : server.Numbered)
    (taken : server.step hslName caseFold e = some next) : next.Numbered := by
  cases e with
  | requested request now =>
    cases taken
    cases accepted : (server.onSendRequested hslName caseFold request now).1 with
    | true =>
      obtain ⟨color, accepts⟩ := onSendRequested_accepts accepted
      exact numbered.accepts accepts
    | false => exact numbered.alike (onSendRequested_refuses accepted)
  | answered post outcome =>
    obtain ⟨update, among, same, -⟩ := step_answered taken
    obtain ⟨outgoing, emits⟩ := step_answered_emits taken
    have old := numbered.updates update (List.mem_filter.mp among).1
    rw [same] at old
    exact (numbered.land post).emits emits old
  | changed around =>
    cases taken
    exact ⟨numbered.sends, numbered.updates, numbered.once⟩

/-! ## What an event does to a post -/

theorem Emits.sendsOf {server next : TwitchIrcServer} {post : Nat} {outgoing : Option Outgoing}
    {update : Option ColorUpdate} (emits : server.Emits next post outgoing update) :
    next.sendsOf post = server.sendsOf post ++ outgoing.toList := by
  unfold TwitchIrcServer.sendsOf
  rw [emits.sends, List.filter_append, List.map_append]
  cases outgoing <;> simp

theorem Emits.sendsOf_other {server next : TwitchIrcServer} {post other : Nat} {outgoing : Option Outgoing}
    {update : Option ColorUpdate} (emits : server.Emits next post outgoing update) (differs : post ≠ other) :
    next.sendsOf other = server.sendsOf other := by
  unfold TwitchIrcServer.sendsOf
  rw [emits.sends, List.filter_append, List.map_append]
  cases outgoing <;> simp [differs]

theorem updatesOf_land (server : TwitchIrcServer) (post : Nat) : (server.land post).updatesOf post = [] := by
  simp [updatesOf, land]

theorem updatesOf_land_other (server : TwitchIrcServer) {post other : Nat} (differs : post ≠ other) :
    (server.land post).updatesOf other = server.updatesOf other := by
  unfold updatesOf land
  rw [List.filter_filter]
  apply List.filter_congr
  intro update _
  by_cases same : update.post = other
  · simp [same, differs.symm]
  · simp [same]

/-- Only the answer to its own colour update touches a post that has been accepted. -/
theorem step_leaves {server next : TwitchIrcServer} {e : Event} {post : Nat} (old : post < server.posts)
    (taken : server.step hslName caseFold e = some next)
    (foreign : ∀ outcome, e ≠ .answered post outcome) :
    next.sendsOf post = server.sendsOf post ∧ next.updatesOf post = server.updatesOf post ∧ server.posts ≤ next.posts := by
  cases e with
  | requested request now =>
    cases taken
    cases accepted : (server.onSendRequested hslName caseFold request now).1 with
    | true =>
      obtain ⟨color, accepts⟩ := onSendRequested_accepts accepted
      refine ⟨?_, ?_, ?_⟩
      · unfold sendsOf
        rw [accepts.sends, List.filter_append, List.map_append]
        cases request.immediate caseFold server.around <;> simp [old.ne']
      · unfold updatesOf
        rw [accepts.updates, List.filter_append]
        split <;> simp [old.ne']
      · rw [accepts.posts]
        exact Nat.le_succ _
    | false =>
      have alike := onSendRequested_refuses accepted
      refine ⟨?_, ?_, alike.posts.ge⟩
      · rw [sendsOf, alike.sends]; rfl
      · rw [updatesOf, alike.updates]; rfl
  | answered other outcome =>
    have differs : other ≠ post := fun same => foreign outcome (congrArg (Event.answered · outcome) same)
    obtain ⟨outgoing, emits⟩ := step_answered_emits taken
    refine ⟨emits.sendsOf_other differs, ?_, emits.posts.ge⟩
    rw [← server.updatesOf_land_other differs, updatesOf, emits.updates, Option.toList_none, List.append_nil]
    rfl
  | changed around =>
    cases taken
    exact ⟨rfl, rfl, le_rfl⟩

/-- The answer to the colour update of a post puts out what is left of the post. -/
theorem step_lands {server next : TwitchIrcServer} {post : Nat} {outcome : Outcome} {request : SendRequest}
    {settings : Settings} {color : QString}
    (waits : server.updatesOf post = [⟨post, request.channel, request.content, color, request.callbacks settings⟩])
    (taken : server.step hslName caseFold (.answered post outcome) = some next) :
    next.sendsOf post = server.sendsOf post ++ (request.delayed settings server.around outcome).toList ∧
      next.updatesOf post = [] ∧ next.posts = server.posts := by
  obtain ⟨update, among, -, rfl⟩ := step_answered taken
  rw [waits, List.mem_singleton] at among
  subst among
  have emits := (server.land post).onColorAnswered_emits request settings post color outcome
  refine ⟨emits.sendsOf, ?_, emits.posts⟩
  rw [updatesOf, emits.updates, Option.toList_none, List.append_nil]
  exact server.updatesOf_land post

/-! ## Runs -/

variable (hslName caseFold) in
/-- The answer to the colour update of the post, and the surroundings in which it arrives. -/
def answerTo (post : Nat) : TwitchIrcServer → List Event → Option (Surroundings × Outcome)
  | _, [] => none
  | server, e :: es =>
      match e, server.step hslName caseFold e with
      | .answered other outcome, some next => if other = post then some (server.around, outcome) else answerTo post next es
      | _, some next => answerTo post next es
      | _, none => none

theorem answerTo_foreign {server next : TwitchIrcServer} {e : Event} {post : Nat} (es : List Event)
    (taken : server.step hslName caseFold e = some next) (foreign : ∀ outcome, e ≠ .answered post outcome) :
    answerTo hslName caseFold post server (e :: es) = answerTo hslName caseFold post next es := by
  cases e with
  | requested request now => simp only [answerTo, taken]
  | answered other outcome =>
    have differs : other ≠ post := fun same => foreign outcome (congrArg (Event.answered · outcome) same)
    simp only [answerTo, taken, if_neg differs]
  | changed around => simp only [answerTo, taken]

/-- A post without an update in flight stays as it is. -/
theorem run_leaves {server final : TwitchIrcServer} {events : List Event} {post : Nat} (old : post < server.posts)
    (landed : server.updatesOf post = []) (ran : run (step hslName caseFold) server events = some final) :
    final.sendsOf post = server.sendsOf post := by
  induction events generalizing server with
  | nil => exact Option.some.inj ran ▸ rfl
  | cons e es ih =>
    obtain ⟨next, taken, rest⟩ := run_cons ran
    have foreign : ∀ outcome, e ≠ .answered post outcome := by
      rintro outcome rfl
      obtain ⟨update, among, -⟩ := step_answered taken
      rw [landed] at among
      cases among
    obtain ⟨sends, updates, posts⟩ := step_leaves old taken foreign
    rw [ih (old.trans_le posts) (updates.trans landed) rest, sends]

/-- A post with its update in flight gets its second part with the answer, and nothing else. -/
theorem run_lands {server final : TwitchIrcServer} {events : List Event} {post : Nat} {request : SendRequest}
    {settings : Settings} {color : QString} (old : post < server.posts)
    (waits : server.updatesOf post = [⟨post, request.channel, request.content, color, request.callbacks settings⟩])
    (ran : run (step hslName caseFold) server events = some final) (settled : final.updatesOf post = []) :
    ∃ later outcome, answerTo hslName caseFold post server events = some (later, outcome) ∧
      final.sendsOf post = server.sendsOf post ++ (request.delayed settings later outcome).toList := by
  induction events generalizing server with
  | nil =>
    rw [← Option.some.inj ran, waits] at settled
    cases settled
  | cons e es ih =>
    obtain ⟨next, taken, rest⟩ := run_cons ran
    by_cases foreign : ∀ outcome, e ≠ .answered post outcome
    · obtain ⟨sends, updates, posts⟩ := step_leaves old taken foreign
      obtain ⟨later, outcome, answer, whole⟩ := ih (old.trans_le posts) (updates.trans waits) rest
      refine ⟨later, outcome, ?_, ?_⟩
      · rw [answerTo_foreign es taken foreign, answer]
      · rw [whole, sends]
    · push Not at foreign
      obtain ⟨outcome, rfl⟩ := foreign
      obtain ⟨sends, updates, posts⟩ := step_lands waits taken
      refine ⟨server.around, outcome, ?_, ?_⟩
      · simp only [answerTo, taken, if_pos]
      · rw [run_leaves (posts ▸ old) updates rest, sends]

/-! ## Sent once -/

/-- One send has left the program for the post, over the given route. -/
def SentOnce (server : TwitchIrcServer) (post : Nat) (route : Route) : Prop :=
  ∃ outgoing, server.sendsOf post = [outgoing] ∧ outgoing.route = route

/-- One send has left the program for the post, over the given route and, over IRC, with the given line. -/
def SentAs (server : TwitchIrcServer) (post : Nat) (route : Route) (line : QString) : Prop :=
  ∃ outgoing, server.sendsOf post = [outgoing] ∧ outgoing.route = route ∧ ∀ text, outgoing = .irc text → text = line

end

end TwitchIrcServer

namespace SendRequest

/-- When a post is sent once, by the surroundings at its request and at the answer to its colour update. -/
def OnceWhen (caseFold : QString → QString) (request : SendRequest) (around : Surroundings)
    (answer : Option (Surroundings × Outcome)) : Prop :=
  if request.Uncoloured caseFold around.settings then request.Open around
  else match answer with
    | none => False
    | some (later, outcome) =>
        if request.Hasty around.settings then
          match outcome with
          | .success => request.Open around
          | .failure _ _ =>
              (request.Open around ∧ ¬ request.Open later) ∨
              (¬ request.Open around ∧ request.Open later ∧ later.route = around.route)
        else request.Open later ∧ later.route = around.route

end SendRequest

namespace TwitchIrcServer

section
variable {hslName : Int → Int → Int → QString} {caseFold : QString → QString}

theorem not_once (route : Route) (line : QString) {server : TwitchIrcServer} {post : Nat} {outgoing : List Outgoing}
    (sends : server.sendsOf post = outgoing) (other : outgoing.length ≠ 1) :
    ¬ server.SentOnce post route ∧ ¬ server.SentAs post route line := by
  constructor
  · rintro ⟨single, sent, -⟩
    exact other (congrArg List.length (sends.symm.trans sent))
  · rintro ⟨single, sent, -⟩
    exact other (congrArg List.length (sends.symm.trans sent))

theorem once_single (route : Route) {line : QString} {server : TwitchIrcServer} {post : Nat} {outgoing : Outgoing}
    (sends : server.sendsOf post = [outgoing]) (same : ∀ text, outgoing = .irc text → text = line) :
    (server.SentOnce post route ↔ outgoing.route = route) ∧ (server.SentAs post route line ↔ outgoing.route = route) := by
  constructor
  · constructor
    · rintro ⟨other, single, taken⟩
      rw [sends, List.singleton_inj] at single
      rwa [single]
    · exact fun taken => ⟨outgoing, sends, taken⟩
  · constructor
    · rintro ⟨other, single, taken, -⟩
      rw [sends, List.singleton_inj] at single
      rwa [single]
    · exact fun taken => ⟨outgoing, sends, taken, same⟩

/-- A post whose only sending is the plain one. -/
theorem once_plain (route : Route) {server : TwitchIrcServer} {post : Nat} {request : SendRequest}
    {around : Surroundings} (sends : server.sendsOf post = (request.plain around).toList) :
    (server.SentOnce post route ↔ request.Open around ∧ around.route = route) ∧
      (server.SentAs post route request.ircLine ↔ request.Open around ∧ around.route = route) := by
  by_cases opened : request.Open around
  · obtain ⟨outgoing, puts, taken, line⟩ := SendRequest.plain_open opened
    rw [puts] at sends
    obtain ⟨once, alike⟩ := once_single route sends line
    rw [once, alike, taken]
    simp only [opened, true_and, and_self]
  · rw [SendRequest.plain_closed opened] at sends
    obtain ⟨once, alike⟩ := not_once route request.ircLine sends Nat.zero_ne_one
    simp only [once, alike, opened, false_and, and_self]

theorem once_behind (route : Route) {server : TwitchIrcServer} {post : Nat} {request : SendRequest}
    {around : Surroundings} (sends : server.sendsOf post = (request.behind around).toList) :
    (server.SentOnce post route ↔ request.Open around ∧ around.route = route) ∧
      (server.SentAs post route request.ircLine ↔ (request.Open around ∧ around.route = route) ∧
        ∀ channel text, request = .message channel text →
          ¬ (around.route = .irc ∧ channel.name.startsWith (qs "$") = true)) := by
  by_cases special : ∃ channel text, request = .message channel text ∧ around.route = .irc
  · obtain ⟨channel, text, rfl, irc⟩ := special
    have opened : (SendRequest.message channel text).Open around := fun helix => nomatch irc.symm.trans helix
    simp only [SendRequest.behind, irc, Option.toList_some] at sends
    constructor
    · constructor
      · rintro ⟨outgoing, single, taken⟩
        rw [sends, List.singleton_inj] at single
        exact ⟨opened, irc.trans (taken.symm ▸ congrArg Outgoing.route single)⟩
      · rintro ⟨-, same⟩
        exact ⟨_, sends, irc.symm.trans same⟩
    · constructor
      · rintro ⟨outgoing, single, taken, line⟩
        rw [sends, List.singleton_inj] at single
        refine ⟨⟨opened, irc.trans (taken.symm ▸ congrArg Outgoing.route single)⟩, ?_⟩
        rintro _ _ ⟨⟩ ⟨-, dollar⟩
        exact SendRequest.dollar_differs channel text dollar (line _ single.symm)
      · rintro ⟨⟨-, same⟩, ordinary⟩
        refine ⟨_, sends, irc.symm.trans same, ?_⟩
        rintro _ ⟨⟩
        rw [SendRequest.ircLine, if_neg fun dollar => ordinary channel text rfl ⟨irc, dollar⟩]
  · have plain : request.behind around = request.plain around := by
      unfold SendRequest.behind
      split
      · next irc => exact absurd ⟨_, _, rfl, irc⟩ special
      · rfl
    rw [plain] at sends
    obtain ⟨once, alike⟩ := once_plain route sends
    refine ⟨once, alike.trans (iff_self_and.mpr ?_)⟩
    rintro - channel text rfl ⟨irc, -⟩
    exact special ⟨channel, text, rfl, irc⟩

/-- A post that is tried twice, both times the plain way. -/
theorem once_plain_twice {server : TwitchIrcServer} {post : Nat} {request : SendRequest} {around later : Surroundings}
    (sends : server.sendsOf post = (request.plain around).toList ++ (request.plain later).toList) :
    (server.SentOnce post around.route ↔ (request.Open around ∧ ¬ request.Open later) ∨
        (¬ request.Open around ∧ request.Open later ∧ later.route = around.route)) ∧
      (server.SentAs post around.route request.ircLine ↔ (request.Open around ∧ ¬ request.Open later) ∨
        (¬ request.Open around ∧ request.Open later ∧ later.route = around.route)) := by
  by_cases opened : request.Open around
  · by_cases again : request.Open later
    · obtain ⟨first, puts, -⟩ := SendRequest.plain_open opened
      obtain ⟨second, putsAgain, -⟩ := SendRequest.plain_open again
      rw [puts, putsAgain] at sends
      obtain ⟨once, alike⟩ := not_once around.route request.ircLine sends (Nat.succ_ne_self 1)
      simp only [once, alike, opened, again, not_true, and_false, false_and, or_self, and_self]
    · rw [SendRequest.plain_closed again, Option.toList_none, List.append_nil] at sends
      have both := once_plain around.route sends
      simpa only [opened, again, not_false_iff, and_true, not_true, false_and, or_false] using both
  · rw [SendRequest.plain_closed opened, Option.toList_none, List.nil_append] at sends
    have both := once_plain around.route sends
    simpa only [opened, not_false_iff, true_and, false_and, false_or] using both

/-- The server behind an accepted request, and the run up to the answer of its colour update. -/
theorem sends_of_run {server final : TwitchIrcServer} {request : SendRequest} {now : Int} {events : List Event}
    (numbered : server.Numbered) (accepted : (server.onSendRequested hslName caseFold request now).1 = true)
    (ran : run (step hslName caseFold) (server.onSendRequested hslName caseFold request now).2 events = some final)
    (settled : final.updatesOf server.posts = []) :
    let answer := answerTo hslName caseFold server.posts (server.onSendRequested hslName caseFold request now).2 events
    if request.Uncoloured caseFold server.around.settings then
      final.sendsOf server.posts = (request.plain server.around).toList
    else ∃ later outcome, answer = some (later, outcome) ∧
      final.sendsOf server.posts = (request.immediate caseFold server.around).toList ++
        (request.delayed server.around.settings later outcome).toList := by
  obtain ⟨color, accepts⟩ := onSendRequested_accepts accepted
  have old : server.posts < (server.onSendRequested hslName caseFold request now).2.posts := by
    rw [accepts.posts]
    exact Nat.lt_succ_self _
  have fresh : server.sendsOf server.posts = [] := by
    rw [sendsOf, List.map_eq_nil_iff, List.filter_eq_nil_iff]
    intro sent among same
    exact (numbered.sends sent among).ne (of_decide_eq_true same)
  have unasked : server.updatesOf server.posts = [] := by
    rw [updatesOf, List.filter_eq_nil_iff]
    intro update among same
    exact (numbered.updates update among).ne (of_decide_eq_true same)
  have first : (server.onSendRequested hslName caseFold request now).2.sendsOf server.posts =
      (request.immediate caseFold server.around).toList := by
    rw [sendsOf, accepts.sends, List.filter_append, List.map_append, ← sendsOf, fresh, List.nil_append]
    cases request.immediate caseFold server.around <;> simp
  have flight : (server.onSendRequested hslName caseFold request now).2.updatesOf server.posts =
      if request.Uncoloured caseFold server.around.settings then []
      else [⟨server.posts, request.channel, request.content, color, request.callbacks server.around.settings⟩] := by
    rw [updatesOf, accepts.updates, List.filter_append, ← updatesOf, unasked, List.nil_append]
    split <;> simp
  by_cases uncoloured : request.Uncoloured caseFold server.around.settings
  · rw [if_pos uncoloured] at flight ⊢
    rw [run_leaves old flight ran, first, SendRequest.immediate, if_pos (Or.inl uncoloured)]
  · rw [if_neg uncoloured] at flight ⊢
    obtain ⟨later, outcome, answer, whole⟩ := run_lands old flight ran settled
    exact ⟨later, outcome, answer, whole.trans (congrArg (· ++ _) first)⟩

theorem numbered_start (around : Surroundings) : Numbered { around } :=
  ⟨fun _ among => (List.not_mem_nil among).elim, fun _ among => (List.not_mem_nil among).elim, List.nodup_nil⟩

/-- Without the rainbow setting an accepted post is its plain sending, over the route of the settings. -/
theorem sends_without_rainbow {server : TwitchIrcServer} {request : SendRequest} {now : Int}
    (accepted : (server.onSendRequested hslName caseFold request now).1 = true)
    (plain : server.around.settings.rainbowMessages = false) :
    (server.onSendRequested hslName caseFold request now).2.sends =
      server.sends ++ (request.plain server.around).toList.map (server.posts, ·) := by
  obtain ⟨color, accepts⟩ := onSendRequested_accepts accepted
  have uncoloured : request.Uncoloured caseFold server.around.settings := fun rainbow => nomatch plain.symm.trans rainbow
  rw [accepts.sends, SendRequest.immediate, if_pos (Or.inl uncoloured)]

/-- Exactly when an accepted post is sent once over the route it takes without the rainbow setting, and
exactly when it is over IRC the same line. -/
theorem post_sent_once {around : Surroundings} {before events : List Event} {server final : TwitchIrcServer}
    {request : SendRequest} {now : Int} (reached : run (step hslName caseFold) { around } before = some server)
    (accepted : (server.onSendRequested hslName caseFold request now).1 = true)
    (ran : run (step hslName caseFold) (server.onSendRequested hslName caseFold request now).2 events = some final)
    (settled : final.updatesOf server.posts = []) :
    let answer := answerTo hslName caseFold server.posts (server.onSendRequested hslName caseFold request now).2 events
    (final.SentOnce server.posts server.around.route ↔ request.OnceWhen caseFold server.around answer) ∧
      (final.SentAs server.posts server.around.route request.ircLine ↔
        request.OnceWhen caseFold server.around answer ∧ ¬ request.Strays caseFold server.around.settings answer) := by
  have numbered : server.Numbered := run_keeps (fun _ _ _ numbered taken => numbered.step taken) reached
    (numbered_start around)
  have sends := sends_of_run numbered accepted ran settled
  dsimp only at sends ⊢
  by_cases uncoloured : request.Uncoloured caseFold server.around.settings
  · rw [if_pos uncoloured] at sends
    have keeps : ¬ request.Strays caseFold server.around.settings
        (answerTo hslName caseFold server.posts (server.onSendRequested hslName caseFold request now).2 events) := by
      unfold SendRequest.Strays
      split
      · exact fun strays => strays.1 uncoloured
      · exact id
    simpa only [SendRequest.OnceWhen, if_pos uncoloured, keeps, not_false_iff, and_true]
      using once_plain server.around.route sends
  · rw [if_neg uncoloured] at sends
    obtain ⟨later, outcome, answer, sends⟩ := sends
    rw [answer]
    simp only [SendRequest.OnceWhen, if_neg uncoloured]
    -- a hasty post is sent at once, and a second time by the callback of a failure
    by_cases hasty : request.Hasty server.around.settings
    · rw [SendRequest.immediate, if_pos (Or.inr hasty)] at sends
      have keeps : ¬ request.Strays caseFold server.around.settings (some (later, outcome)) := by
        unfold SendRequest.Strays
        split
        · exact fun strays => strays.2.1 hasty
        · exact id
      cases outcome with
      | success =>
        rw [SendRequest.delayed, if_pos hasty, Option.toList_none, List.append_nil] at sends
        simpa only [if_pos hasty, keeps, not_false_iff, and_true]
          using once_plain server.around.route sends
      | failure error helixErrorMessage =>
        simpa only [if_pos hasty, keeps, not_false_iff, and_true] using once_plain_twice sends
    · rw [SendRequest.immediate, if_neg (by tauto), Option.toList_none, List.nil_append] at sends
      simp only [if_neg hasty]
      cases outcome with
      | success =>
        rw [SendRequest.delayed, if_neg hasty] at sends
        obtain ⟨once, alike⟩ := once_behind server.around.route sends
        refine ⟨once, alike.trans (and_congr_right' ?_)⟩
        cases request with
        | message channel text =>
          simp only [SendRequest.Strays, uncoloured, hasty, not_false_iff, true_and, SendRequest.message.injEq]
          constructor
          · exact fun ordinary => ordinary channel text ⟨rfl, rfl⟩
          · rintro ordinary _ _ ⟨rfl, rfl⟩
            exact ordinary
        | reply channel text replyId => simp [SendRequest.Strays]
      | failure error helixErrorMessage =>
        have keeps : ¬ request.Strays caseFold server.around.settings
            (some (later, .failure error helixErrorMessage)) := by
          cases request <;> exact id
        simpa only [keeps, not_false_iff, and_true] using once_plain server.around.route sends

end

/-- Rainbow messages by the second method, which sends first, over IRC. -/
def rainbowSettings : Settings where
  chatSendProtocol := .irc
  rainbowMessages := true
  rainbowMethod := true
  rainbowMessagesPrime := false
  rainbowSpeed := 10
  rainbowStartingHue := 0
  rainbowSaturation := 153
  rainbowLight := 128
  allowRainbowChannels := false
  rainbowChannels := qs "forsen"
  enableDefaultColor := false
  defaultColor := qs "#000000"
  twitchHighRateLimitDelay := 100
  twitchLowRateLimitDelay := 1100
  ignoreMaxMessageRateLimit := false

def rainbowStart : Surroundings := ⟨rainbowSettings, qs "1", fun _ => [], fun _ => false⟩

def forsen : TwitchChannel := ⟨0, qs "forsen"⟩

/-- A reply waits for its colour and is sent once, whatever the answer. -/
theorem post_sent_once_reply :
    ∃ final, run (step (fun _ _ _ => []) id)
        (onSendRequested (fun _ _ _ => []) id { around := rainbowStart } (.reply forsen (qs "hi") (qs "a1")) 100000).2
        [.answered 0 (.failure .unknown [])] = some final ∧ final.SentOnce 0 .irc := by
  refine ⟨_, rfl, ?_⟩
  have sends := (@post_sent_once (fun _ _ _ => []) id rainbowStart [] [.answered 0 (.failure .unknown [])]
    { around := rainbowStart } _ (.reply forsen (qs "hi") (qs "a1")) 100000 rfl rfl rfl (by decide)).1
  exact sends.mpr ⟨by decide, rfl⟩

/-- A message of the second method whose colour update fails is sent twice. -/
theorem message_sent_twice :
    ¬ ∀ (hslName : Int → Int → Int → QString) (caseFold : QString → QString) (around : Surroundings)
      (before events : List Event) (server final : TwitchIrcServer) (request : SendRequest) (now : Int),
      run (step hslName caseFold) { around } before = some server →
      (server.onSendRequested hslName caseFold request now).1 = true →
      run (step hslName caseFold) (server.onSendRequested hslName caseFold request now).2 events = some final →
      final.updatesOf server.posts = [] → final.SentOnce server.posts server.around.route := by
  intro claim
  have once := claim (fun _ _ _ => []) id rainbowStart [] [.answered 0 (.failure .unknown [])] { around := rainbowStart } _
    (.message forsen (qs "hi")) 100000 rfl rfl rfl (by decide)
  exact absurd once (not_once .irc [] rfl (by decide)).1

end TwitchIrcServer

end Forserino.Sending
