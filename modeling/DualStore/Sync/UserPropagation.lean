import DualStore.Sync.Context
import DualStore.Sync.Script

/-!
Contract: identity changes reach every collection that holds a copy of the identity.

Owns:
- the places where an identity is embedded, those of them that are anonymised when the account is
  deleted, and the data that is purged then;
- the scripts of identity events, in which every write is attempted whatever becomes of the
  others.

Does not own: the search index, which has a handler of its own.
-/

namespace DualStore.UserPropagation

/-- A place where an identity is embedded: the collection, the field that holds the user, and the
fields that hold the copied nickname and avatar. -/
structure Embedding where
  collection : Collection
  userField : String
  nicknameField : String
  avatarField : String
deriving DecidableEq, Repr

def postAuthor : Embedding := ⟨.posts, "userId", "userNickname", "userAvatar"⟩

def commentAuthor : Embedding := ⟨.comments, "userId", "userNickname", "userAvatar"⟩

def commentReply : Embedding :=
  ⟨.comments, "replyToUserId", "replyToUserNickname", "replyToUserAvatar"⟩

/-- The copies written over when a profile changes. -/
def profileCopies : List Embedding :=
  [postAuthor,
   commentAuthor,
   ⟨.userFollows, "userId", "userNickname", "userAvatar"⟩,
   ⟨.userFollows, "targetUserId", "targetUserNickname", "targetUserAvatar"⟩,
   commentReply,
   ⟨.notifications, "senderId", "senderNickname", "senderAvatar"⟩]

/-- The copies anonymised in place when an account is deleted. The content stays, since others
refer to it. -/
def anonymisedCopies : List Embedding := [postAuthor, commentAuthor, commentReply]

/-- The data removed when an account is deleted: relations and activity. -/
def purged : List (Collection × String) :=
  [(.userFollows, "userId"),
   (.userFollows, "targetUserId"),
   (.postLikes, "userId"),
   (.commentLikes, "userId"),
   (.postCollects, "userId"),
   (.postRatings, "userId"),
   (.notifications, "receiverId"),
   (.notifications, "senderId"),
   (.searchHistories, "userId"),
   (.postViewHistories, "userId")]

def accepts (kind : Kind) : Bool := kind == .identityUpdated || kind == .identityDeleted

def Embedding.updates (place : Embedding) (update : AuthorUpdate) : List (String × String) :=
  (update.nickname.toList.map fun nickname => (place.nicknameField, nickname)) ++
    (update.avatar.toList.map fun avatar => (place.avatarField, avatar))

def overwriteAll (userId : Int64) (update : AuthorUpdate) (places : List Embedding)
    (next : Script) : Script :=
  if update.isEmpty then next
  else
    places.foldr
      (fun place rest =>
        .attempt (.updateByUser place.collection place.userField userId (place.updates update))
          rest)
      next

def purgeAll (userId : Int64) (places : List (Collection × String)) (next : Script) : Script :=
  places.foldr (fun place rest => .attempt (.deleteByUser place.1 place.2 userId) rest) next

/-- Anonymising comes before purging, so that content never points at a vanished identity. -/
def script (context : Context) : Event → Script
  | .identityUpdated identity =>
      overwriteAll identity.userId (.ofIdentity identity) profileCopies .done
  | .identityDeleted identity =>
      overwriteAll identity.userId
        { nickname := some context.placeholder.nickname, avatar := some context.placeholder.avatar }
        anonymisedCopies (purgeAll identity.userId purged .done)
  | _ => .done

end DualStore.UserPropagation
