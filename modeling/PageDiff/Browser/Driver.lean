import PageDiff.Browser.Event
import PageDiff.Fault

/-!
# Behaviour of the browser

A driver is any behaviour of the browser: what it answers to a call may depend on all the calls
before.  Nothing in a run assumes more of it.
-/

namespace PageDiff.Browser

/-- What a browser answers to a call. -/
inductive Reply
  | done
  | fails (fault : Fault)
  /-- The call never returns. -/
  | hangs
  deriving DecidableEq

/-- A picture as the browser hands it over. -/
inductive Screenshot
  /-- The encoding of an image, with a text that is stored beside the pixels. -/
  | encoded (image : Image) (tag : String)
  /-- Bytes that can not be decoded, and why. -/
  | unreadable (data : List UInt8) (why : Fault)
  deriving DecidableEq

/-- The image of a picture. -/
def Screenshot.decode : Screenshot → Except Fault Image
  | .encoded image _ => .ok image
  | .unreadable _ why => .error why

/-- A behaviour of the browser. -/
structure Driver where
  /-- The answer to a call, given the calls before it. -/
  reply : List Event → Event → Reply
  /-- The picture of a screenshot that succeeds, given the calls up to and with it. -/
  picture : List Event → Screenshot

end PageDiff.Browser
