import Forserino.Sending.Server

/-! How often, and over which route, a post is sent. The immediate part of a post is
put out when it is accepted, the rest by the callback of its colour update; every
other event leaves the post alone.
-/

set_option autoImplicit false

namespace Forserino.Sending

open Forserino.Qt Foundation

inductive Route where
  | helix
  | irc
  deriving DecidableEq, Repr

def Outgoing.route : Outgoing → Route
  | .helix _ _ _ _ => .helix
  | .irc _ => .irc

/-- The route of a message without the rainbow setting. -/
def Surroundings.route (around : Surroundings) : Route :=
  if shouldSendHelixChat around.settings then .helix else .irc

namespace SendRequest

def channel : SendRequest → TwitchChannel
  | .message channel _ | .reply channel _ _ => channel

/-- Helix needs the id of the room. -/
def Open (request : SendRequest) (around : Surroundings) : Prop :=
  around.route = .helix → around.roomId request.channel ≠ []

instance (request : SendRequest) (around : Surroundings) : Decidable (request.Open around) :=
  inferInstanceAs (Decidable (_ → _))

/-- The line that the post is over IRC without the rainbow setting. -/
def ircLine : SendRequest → QString
  | .message channel text =>
      if channel.name.startsWith (qs "$") then qs "PRIVMSG " ++ channel.name.mid 1 ++ qs " :" ++ text
      else qs "PRIVMSG #" ++ channel.name ++ qs " :" ++ text
  | .reply channel text replyId =>
      qs "@reply-parent-msg-id=" ++ replyId ++ qs " PRIVMSG #" ++ channel.name ++ qs " :" ++ text

/-- What the post puts out without the rainbow setting, if anything. -/
def plain (request : SendRequest) (around : Surroundings) : Option Outgoing :=
  match around.route with
  | .irc => some (.irc request.ircLine)
  | .helix =>
      if around.roomId request.channel = [] then none
      else match request with
        | .message channel text => some (.helix (around.roomId channel) around.userId text [])
        | .reply channel text replyId => some (.helix (around.roomId channel) around.userId text replyId)

/-- What the success callback of a waiting post puts out. A message loses the case of a $ channel. -/
def behind (request : SendRequest) (around : Surroundings) : Option Outgoing :=
  match around.route, request with
  | .irc, .message channel text => some (.irc (qs "PRIVMSG #" ++ channel.name ++ qs " :" ++ text))
  | _, _ => request.plain around

variable (caseFold : QString → QString)

/-- The post does not ask for a colour. -/
def Uncoloured (request : SendRequest) (settings : Settings) : Prop :=
  settings.rainbowMessages = true →
    TwitchIrcServer.restricted caseFold settings request.channel = true ∧
    match request with
    | .message _ _ => settings.enableDefaultColor = false
    | .reply _ _ _ => True

/-- The post is sent before its colour is known. -/
def Hasty (request : SendRequest) (settings : Settings) : Prop :=
  match request with
  | .message _ _ => settings.rainbowMethod = true
  | .reply _ _ _ => False

instance (request : SendRequest) (settings : Settings) : Decidable (request.Uncoloured caseFold settings) :=
  match request with
  | .message _ _ => inferInstanceAs (Decidable (_ → _ ∧ settings.enableDefaultColor = false))
  | .reply _ _ _ => inferInstanceAs (Decidable (_ → _ ∧ True))

instance (request : SendRequest) (settings : Settings) : Decidable (request.Hasty settings) :=
  match request with
  | .message _ _ => inferInstanceAs (Decidable (settings.rainbowMethod = true))
  | .reply _ _ _ => inferInstanceAs (Decidable False)

def callbacks (request : SendRequest) (settings : Settings) : Callbacks :=
  match request with
  | .message _ _ => if settings.rainbowMethod then .sentBefore else .sendBehind
  | .reply _ _ replyId => .replyBehind replyId

def content : SendRequest → QString
  | .message _ text | .reply _ text _ => text

/-- What is put out for the post when it is accepted. -/
def immediate (request : SendRequest) (around : Surroundings) : Option Outgoing :=
  if request.Uncoloured caseFold around.settings ∨ request.Hasty around.settings then request.plain around else none

/-- What the callback of the colour update puts out, where the post was accepted under the first settings. -/
def delayed (request : SendRequest) (accepted : Settings) (around : Surroundings) : Outcome → Option Outgoing
  | .success => if request.Hasty accepted then none else request.behind around
  | .failure _ _ => request.plain around

end SendRequest

namespace TwitchIrcServer

/-- What has left the program for the post. -/
def sendsOf (server : TwitchIrcServer) (post : Nat) : List Outgoing :=
  (server.sends.filter (·.1 = post)).map (·.2)

def updatesOf (server : TwitchIrcServer) (post : Nat) : List ColorUpdate := server.updates.filter (·.post = post)

/-! ## What the parts of a handler leave alone -/

/-- The same posts, sends and updates under the same surroundings. -/
structure Alike (server other : TwitchIrcServer) : Prop where
  around : other.around = server.around
  posts : other.posts = server.posts
  sends : other.sends = server.sends
  updates : other.updates = server.updates

theorem addSystemMessage_alike (server : TwitchIrcServer) (channel : TwitchChannel) (text : QString) :
    server.Alike (server.addSystemMessage channel text) := ⟨rfl, rfl, rfl, rfl⟩

theorem setLastMessage_alike (server : TwitchIrcServer) (high : Bool) (times : List Int) :
    server.Alike (server.setLastMessage high times) := by
  unfold setLastMessage
  split <;> exact ⟨rfl, rfl, rfl, rfl⟩

theorem prepareToSend_alike (server : TwitchIrcServer) (channel : TwitchChannel) (now : Int) :
    server.Alike (server.prepareToSend channel now).2 := by
  dsimp only [prepareToSend]
  split
  · split
    · exact ⟨rfl, rfl, rfl, rfl⟩
    · exact ⟨rfl, rfl, rfl, rfl⟩
  · split
    · have alike := server.setLastMessage_alike (server.around.hasHighRateLimit channel)
        ((server.lastMessage (server.around.hasHighRateLimit channel)).dropWhile fun time => decide (time + 32000 < now))
      split
      · exact ⟨alike.around, alike.posts, alike.sends, alike.updates⟩
      · exact alike
    · exact server.setLastMessage_alike _ _

theorem nextColor_alike (hslName : Int → Int → Int → QString) (server : TwitchIrcServer) (channel : TwitchChannel) :
    server.Alike (server.nextColor hslName channel).2 := by
  cases prime : server.around.settings.rainbowMessagesPrime with
  | true =>
    simp only [nextColor, prime]
    exact ⟨rfl, rfl, rfl, rfl⟩
  | false =>
    simp only [nextColor, prime]
    exact ⟨rfl, rfl, rfl, rfl⟩

/-- The server with more sends for the post, and perhaps a colour update for it. -/
structure Emits (server next : TwitchIrcServer) (post : Nat) (outgoing : Option Outgoing)
    (update : Option ColorUpdate) : Prop where
  around : next.around = server.around
  posts : next.posts = server.posts
  sends : next.sends = server.sends ++ outgoing.toList.map (post, ·)
  updates : next.updates = server.updates ++ update.toList

theorem Alike.emits {server middle next : TwitchIrcServer} {post : Nat} {outgoing : Option Outgoing}
    {update : Option ColorUpdate} (alike : server.Alike middle) (emits : middle.Emits next post outgoing update) :
    server.Emits next post outgoing update := by
  constructor
  · rw [emits.around, alike.around]
  · rw [emits.posts, alike.posts]
  · rw [emits.sends, alike.sends]
  · rw [emits.updates, alike.updates]

theorem Emits.updateUserChatColor {server next : TwitchIrcServer} {post : Nat} {outgoing : Option Outgoing}
    (emits : server.Emits next post outgoing none) (update : ColorUpdate) :
    server.Emits (next.updateUserChatColor update) post outgoing (some update) := by
  refine ⟨emits.around, emits.posts, emits.sends, ?_⟩
  change next.updates ++ [update] = _
  rw [emits.updates, Option.toList_none, List.append_nil, Option.toList_some]

theorem emits_put (server : TwitchIrcServer) (post : Nat) (outgoing : Outgoing) :
    server.Emits (server.put post outgoing) post (some outgoing) none :=
  ⟨rfl, rfl, rfl, (List.append_nil server.updates).symm⟩

theorem emits_none (server : TwitchIrcServer) (post : Nat) : server.Emits server post none none :=
  ⟨rfl, rfl, (List.append_nil server.sends).symm, (List.append_nil server.updates).symm⟩

theorem sendHelixMessage_emits (server : TwitchIrcServer) (post : Nat) (channel : TwitchChannel)
    (message replyParentId : QString) :
    server.Emits (server.sendHelixMessage post channel message replyParentId) post
      (if server.around.roomId channel = [] then none
        else some (.helix (server.around.roomId channel) server.around.userId message replyParentId)) none := by
  unfold sendHelixMessage
  by_cases unknown : server.around.roomId channel = []
  · rw [if_pos unknown, if_pos unknown]
    exact (server.addSystemMessage_alike channel _).emits (emits_none _ post)
  · rw [if_neg unknown, if_neg unknown]
    exact emits_put server post _

theorem sendPlain_emits (server : TwitchIrcServer) (post : Nat) (channel : TwitchChannel) (message : QString) :
    server.Emits (server.sendPlain post channel message) post
      ((SendRequest.message channel message).plain server.around) none := by
  unfold sendPlain SendRequest.plain Surroundings.route
  cases shouldSendHelixChat server.around.settings with
  | true => exact server.sendHelixMessage_emits post channel message []
  | false =>
    simp only [Bool.false_eq_true, ite_false, SendRequest.ircLine]
    split
    · exact emits_put server post _
    · exact emits_put server post _

theorem sendReply_emits (server : TwitchIrcServer) (post : Nat) (channel : TwitchChannel) (message replyId : QString) :
    server.Emits (server.sendReply post channel message replyId) post
      ((SendRequest.reply channel message replyId).plain server.around) none := by
  unfold sendReply SendRequest.plain Surroundings.route
  cases shouldSendHelixChat server.around.settings with
  | true => exact server.sendHelixMessage_emits post channel message replyId
  | false => exact emits_put server post _

theorem onColorAnswered_emits (server : TwitchIrcServer) (request : SendRequest) (accepted : Settings) (post : Nat)
    (color : QString) (outcome : Outcome) :
    server.Emits (server.onColorAnswered ⟨post, request.channel, request.content, color, request.callbacks accepted⟩ outcome)
      post (request.delayed accepted server.around outcome) none := by
  cases outcome with
  | success =>
    cases request with
    | message channel message =>
      cases hasty : accepted.rainbowMethod with
      | true =>
        simp only [onColorAnswered, onColorUpdated, SendRequest.callbacks, SendRequest.delayed, SendRequest.Hasty, hasty]
        exact emits_none server post
      | false =>
        simp only [onColorAnswered, onColorUpdated, SendRequest.callbacks, SendRequest.delayed, SendRequest.Hasty, hasty,
          Bool.false_eq_true, ite_false, SendRequest.behind, Surroundings.route]
        cases helix : shouldSendHelixChat server.around.settings with
        | true =>
          simp only [SendRequest.plain, Surroundings.route, helix]
          exact server.sendHelixMessage_emits post channel message []
        | false => exact emits_put server post _
    | reply channel message replyId =>
      have sends := server.sendReply_emits post channel message replyId
      simpa [onColorAnswered, onColorUpdated, SendRequest.callbacks, SendRequest.delayed, SendRequest.Hasty,
        SendRequest.behind, SendRequest.channel, SendRequest.content] using sends
  | failure error helixErrorMessage =>
    have alike := server.addSystemMessage_alike request.channel (failureText color error helixErrorMessage)
    cases request with
    | message channel message =>
      have sends := alike.emits ((server.addSystemMessage channel
        (failureText color error helixErrorMessage)).sendPlain_emits post channel message)
      cases hasty : accepted.rainbowMethod with
      | true =>
        simp only [onColorAnswered, onColorFailed, SendRequest.callbacks, hasty]
        exact sends
      | false =>
        simp only [onColorAnswered, onColorFailed, SendRequest.callbacks, hasty]
        exact sends
    | reply channel message replyId =>
      exact alike.emits ((server.addSystemMessage channel
        (failureText color error helixErrorMessage)).sendReply_emits post channel message replyId)

/-! ## The handlers -/

section
variable (hslName : Int → Int → Int → QString) (caseFold : QString → QString)

/-- What an accepted request does to the server. -/
structure Accepts (server next : TwitchIrcServer) (request : SendRequest) (color : QString) : Prop where
  around : next.around = server.around
  posts : next.posts = server.posts + 1
  sends : next.sends = server.sends ++ (request.immediate caseFold server.around).toList.map (server.posts, ·)
  updates : next.updates = server.updates ++
    if request.Uncoloured caseFold server.around.settings then []
    else [⟨server.posts, request.channel, request.content, color, request.callbacks server.around.settings⟩]

variable {hslName caseFold}

theorem Accepts.of_emits {server middle next : TwitchIrcServer} {request : SendRequest} {color : QString}
    {outgoing : Option Outgoing} {update : Option ColorUpdate} (alike : server.accept.Alike middle)
    (emits : middle.Emits next server.posts outgoing update)
    (sends : outgoing = request.immediate caseFold server.around)
    (updates : update.toList = if request.Uncoloured caseFold server.around.settings then []
      else [⟨server.posts, request.channel, request.content, color, request.callbacks server.around.settings⟩]) :
    server.Accepts caseFold next request color := by
  have whole := alike.emits emits
  refine ⟨whole.around, whole.posts, ?_, ?_⟩
  · rw [whole.sends, sends]; rfl
  · rw [whole.updates, updates]; rfl

theorem Alike.accept {server next : TwitchIrcServer} (alike : server.Alike next) : server.accept.Alike next.accept :=
  ⟨alike.around, congrArg (· + 1) alike.posts, alike.sends, alike.updates⟩

theorem Alike.trans {server middle next : TwitchIrcServer} (first : server.Alike middle) (second : middle.Alike next) :
    server.Alike next :=
  ⟨second.around.trans first.around, second.posts.trans first.posts, second.sends.trans first.sends,
    second.updates.trans first.updates⟩

theorem onMessageSendRequested_accepts {server : TwitchIrcServer} {channel : TwitchChannel} {message : QString}
    {now : Int} (accepted : (server.onMessageSendRequested hslName caseFold channel message now).1 = true) :
    ∃ color, server.Accepts caseFold (server.onMessageSendRequested hslName caseFold channel message now).2
      (.message channel message) color := by
  have alike := server.prepareToSend_alike channel now
  unfold onMessageSendRequested at accepted ⊢
  generalize server.prepareToSend channel now = result at alike accepted ⊢
  obtain ⟨canSend, prepared⟩ := result
  replace alike := alike.accept
  dsimp only at alike accepted ⊢
  cases canSend with
  | false => cases accepted
  | true =>
    have sends (other : TwitchIrcServer) (same : server.accept.Alike other) :
        other.Emits (other.sendPlain server.posts channel message) server.posts
          ((SendRequest.message channel message).plain server.around) none := by
      have emits := other.sendPlain_emits server.posts channel message
      rwa [same.around] at emits
    cases rainbow : server.around.settings.rainbowMessages with
    | false =>
      refine ⟨[], Accepts.of_emits alike (sends _ alike) ?_ ?_⟩
      · simp [SendRequest.immediate, SendRequest.Uncoloured, rainbow]
      · simp [SendRequest.Uncoloured, rainbow]
    | true =>
      have painted := alike.trans (prepared.accept.nextColor_alike hslName channel)
      simp only [ite_true]
      -- a restricted channel without a default colour gets the message in the old one
      by_cases plain : (restricted caseFold server.around.settings channel && !server.around.settings.enableDefaultColor)
          = true
      · rw [if_pos plain]
        rw [Bool.and_eq_true, Bool.not_eq_true'] at plain
        refine ⟨[], Accepts.of_emits painted (sends _ painted) ?_ ?_⟩
        · simp [SendRequest.immediate, SendRequest.Uncoloured, SendRequest.channel, plain]
        · simp [SendRequest.Uncoloured, SendRequest.channel, plain]
      · rw [if_neg plain]
        have coloured : ¬ (SendRequest.message channel message).Uncoloured caseFold server.around.settings := by
          intro uncoloured
          apply plain
          rw [Bool.and_eq_true, Bool.not_eq_true']
          exact uncoloured rainbow
        generalize (if restricted caseFold server.around.settings channel = true then server.around.settings.defaultColor
          else (nextColor hslName prepared.accept channel).1) = color
        cases hasty : server.around.settings.rainbowMethod with
        | true =>
          refine ⟨color, Accepts.of_emits painted ((sends _ painted).updateUserChatColor _) ?_ ?_⟩
          · simp [SendRequest.immediate, SendRequest.Hasty, hasty]
          · simp only [if_neg coloured, SendRequest.callbacks, hasty]
            rfl
        | false =>
          refine ⟨color, Accepts.of_emits painted ((emits_none _ _).updateUserChatColor _) ?_ ?_⟩
          · simp [SendRequest.immediate, SendRequest.Hasty, coloured, hasty]
          · simp only [if_neg coloured, SendRequest.callbacks, hasty]
            rfl

theorem onReplySendRequested_accepts {server : TwitchIrcServer} {channel : TwitchChannel} {message replyId : QString}
    {now : Int} (accepted : (server.onReplySendRequested hslName caseFold channel message replyId now).1 = true) :
    ∃ color, server.Accepts caseFold (server.onReplySendRequested hslName caseFold channel message replyId now).2
      (.reply channel message replyId) color := by
  have alike := server.prepareToSend_alike channel now
  unfold onReplySendRequested at accepted ⊢
  generalize server.prepareToSend channel now = result at alike accepted ⊢
  obtain ⟨canSend, prepared⟩ := result
  replace alike := alike.accept
  dsimp only at alike accepted ⊢
  cases canSend with
  | false => cases accepted
  | true =>
    have sends : prepared.accept.Emits (prepared.accept.sendReply server.posts channel message replyId) server.posts
        ((SendRequest.reply channel message replyId).plain server.around) none := by
      have emits := prepared.accept.sendReply_emits server.posts channel message replyId
      rwa [alike.around] at emits
    cases rainbow : server.around.settings.rainbowMessages with
    | false =>
      refine ⟨[], Accepts.of_emits alike sends ?_ ?_⟩
      · simp [SendRequest.immediate, SendRequest.Uncoloured, rainbow]
      · simp [SendRequest.Uncoloured, rainbow]
    | true =>
      simp only [ite_true]
      by_cases outside : restricted caseFold server.around.settings channel = true
      · rw [if_pos outside]
        refine ⟨[], Accepts.of_emits alike sends ?_ ?_⟩
        · simp [SendRequest.immediate, SendRequest.Uncoloured, SendRequest.channel, outside]
        · simp [SendRequest.Uncoloured, SendRequest.channel, outside]
      · rw [if_neg outside]
        have coloured : ¬ (SendRequest.reply channel message replyId).Uncoloured caseFold server.around.settings :=
          fun uncoloured => outside (uncoloured rainbow).1
        have painted := alike.trans (prepared.accept.nextColor_alike hslName channel)
        refine ⟨(nextColor hslName prepared.accept channel).1,
          Accepts.of_emits painted ((emits_none _ _).updateUserChatColor _) ?_ ?_⟩
        · simp [SendRequest.immediate, SendRequest.Hasty, coloured]
        · simp only [if_neg coloured]
          rfl

theorem onSendRequested_accepts {server : TwitchIrcServer} {request : SendRequest} {now : Int}
    (accepted : (server.onSendRequested hslName caseFold request now).1 = true) :
    ∃ color, server.Accepts caseFold (server.onSendRequested hslName caseFold request now).2 request color := by
  cases request with
  | message channel message => exact onMessageSendRequested_accepts accepted
  | reply channel message replyId => exact onReplySendRequested_accepts accepted

theorem onMessageSendRequested_refuses {server : TwitchIrcServer} {channel : TwitchChannel} {message : QString} {now : Int}
    (refused : (server.onMessageSendRequested hslName caseFold channel message now).1 = false) :
    server.Alike (server.onMessageSendRequested hslName caseFold channel message now).2 := by
  have alike := server.prepareToSend_alike channel now
  unfold onMessageSendRequested at refused ⊢
  generalize server.prepareToSend channel now = result at alike refused ⊢
  obtain ⟨canSend, prepared⟩ := result
  cases canSend with
  | false => exact alike
  | true =>
    dsimp only at refused
    split_ifs at refused

theorem onReplySendRequested_refuses {server : TwitchIrcServer} {channel : TwitchChannel} {message replyId : QString} {now : Int}
    (refused : (server.onReplySendRequested hslName caseFold channel message replyId now).1 = false) :
    server.Alike (server.onReplySendRequested hslName caseFold channel message replyId now).2 := by
  have alike := server.prepareToSend_alike channel now
  unfold onReplySendRequested at refused ⊢
  generalize server.prepareToSend channel now = result at alike refused ⊢
  obtain ⟨canSend, prepared⟩ := result
  cases canSend with
  | false => exact alike
  | true =>
    dsimp only at refused
    split_ifs at refused

theorem onSendRequested_refuses {server : TwitchIrcServer} {request : SendRequest} {now : Int}
    (refused : (server.onSendRequested hslName caseFold request now).1 = false) :
    server.Alike (server.onSendRequested hslName caseFold request now).2 := by
  cases request with
  | message channel message => exact onMessageSendRequested_refuses refused
  | reply channel message replyId => exact onReplySendRequested_refuses refused

end

end TwitchIrcServer

end Forserino.Sending
