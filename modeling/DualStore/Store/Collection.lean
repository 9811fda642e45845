/-!
Contract: the collections of the document store.

Owns: their closed set and their names.

Does not own: which fields of their documents name a user; that is the part of the handlers that
write them.
-/

namespace DualStore

inductive Collection where
  | posts
  | comments
  | userFollows
  | postLikes
  | commentLikes
  | postCollects
  | postRatings
  | notifications
  | searchHistories
  | postViewHistories
  | apiLogs
deriving DecidableEq, Repr, Inhabited

namespace Collection

def all : List Collection :=
  [posts, comments, userFollows, postLikes, commentLikes, postCollects, postRatings, notifications,
   searchHistories, postViewHistories, apiLogs]

def name : Collection → String
  | posts => "posts"
  | comments => "comments"
  | userFollows => "user_follows"
  | postLikes => "post_likes"
  | commentLikes => "comment_likes"
  | postCollects => "post_collects"
  | postRatings => "post_ratings"
  | notifications => "notifications"
  | searchHistories => "search_histories"
  | postViewHistories => "post_view_histories"
  | apiLogs => "api_logs"

end Collection

end DualStore
