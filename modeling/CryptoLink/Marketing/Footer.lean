import CryptoLink.Money
import CryptoLink.Library.TextSearch

/-!
# The unsubscribe footer

The footer goes in front of the last closing tag of the body. The tag is looked
for in a lower-case copy, and the place is used in the body itself. Strings are
the bytes of their encoding, as slices of them need not be text.
-/

namespace CryptoLink

namespace Marketing

open TextSearch

def closingTag : List Char := "</body>".toList

def footerStart : String :=
  "<div style=\"margin-top:32px;padding-top:16px;border-top:1px solid #e2e8f0;" ++
  "text-align:center;\">\n" ++
  "  <p style=\"color:#94a3b8;font-size:12px;\">You are receiving this email because you " ++
  "opted in to marketing communications from CryptoLink.</p>\n" ++
  "  <p style=\"color:#94a3b8;font-size:12px;\"><a href=\""

def footerEnd : String :=
  "\" style=\"color:#10b981;\">Unsubscribe</a> from future marketing emails.</p>\n</div>"

def footer (unsubLink : String) : List UInt8 :=
  utf8 (footerStart.toList ++ unsubLink.toList ++ footerEnd.toList)

/-- The two slices panic where the index is beyond the body. -/
def injectUnsubscribeFooter (bodyHTML unsubLink : String) : Except Err (List UInt8) :=
  let body := utf8 bodyHTML.toList
  match lastIndex (utf8 closingTag) (utf8 (lower bodyHTML).toList) with
  | some idx =>
    if idx ≤ body.length then .ok (body.take idx ++ footer unsubLink ++ body.drop idx)
    else .error (Err.of (.panic "slice bounds out of range"))
  | none => .ok (body ++ footer unsubLink)

end Marketing

end CryptoLink
