import Forserino.Qt.Text

/-! The chatters that complete a query. QString::toLower is a parameter.
-/

set_option autoImplicit false

namespace Forserino.Completion

open Qt

variable (toLower : QString → QString)

/-- formatUserMention with the two settings -/
def formatUserMention (userName : QString) (isFirstWord mentionUsersWithComma lowercaseUsernames : Bool) : QString :=
  let result := if isFirstWord && mentionUsersWithComma then userName ++ [u ','] else userName
  if lowercaseUsernames then toLower result else result

/-- The name in lower case and the one that is shown. -/
abbrev UserItem := QString × QString

/-- What ClassicUserStrategy looks for in the names. -/
def ClassicUserStrategy.lowerQuery (query : QString) : QString :=
  let lowerQuery := toLower query
  if lowerQuery.startsWith [u '@'] then lowerQuery.drop 1 else lowerQuery

/-- The test of ClassicUserStrategy. -/
def ClassicUserStrategy.isMatch (query : QString) (item : UserItem) : Bool :=
  item.1.startsWith (lowerQuery toLower query)

def ClassicUserStrategy.apply (items : List UserItem) (query : QString) : List UserItem :=
  items.filter (isMatch toLower query)

/-- The settings of the mentions. -/
structure MentionSettings where
  mentionUsersWithComma : Bool
  lowercaseUsernames : Bool
  deriving DecidableEq, Repr

/-- The text of an item in UserSource::addToStringList -/
def UserSource.completion (settings : MentionSettings) (prependAt isFirstWord : Bool) (user : UserItem) : QString :=
  let userMention :=
    formatUserMention toLower user.2 isFirstWord settings.mentionUsersWithComma settings.lowercaseUsernames
  (if prependAt then [u '@'] else []) ++ userMention ++ [u ' ']

end Forserino.Completion
