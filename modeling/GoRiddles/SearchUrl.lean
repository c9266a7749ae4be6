import GoRiddles.Cache
import GoRiddles.QueryString
/-!
# SearchUrl — the search text in the address

`TabWebView.search`, `BingSearchEngine.getSearchUrl` and the two places that call the search with a text that is not blank.
The address is the engine's prefix and the text as it was typed, without its line breaks, one after the other: nothing is
escaped on the way, so a reader of the address gets the text back only if it has nothing in it that a reader takes apart.
-/
namespace Riddles

def getSearchUrl : Text := "https://cn.bing.com/search?q=".toList

/-- `Char.isWhitespace`: the controls that separate, and the space separators. -/
def isWhitespace (c : Char) : Bool :=
  (0x09 ≤ c.toNat ∧ c.toNat ≤ 0x0D) ∨ (0x1C ≤ c.toNat ∧ c.toNat ≤ 0x20) ∨ (0x2000 ≤ c.toNat ∧ c.toNat ≤ 0x200A) ∨
    c.toNat ∈ [0xA0, 0x1680, 0x2028, 0x2029, 0x202F, 0x205F, 0x3000]

def isBlank (s : Text) : Bool := s.all isWhitespace

structure TabWebView where
  etSearchContent   : Text
  lastSearchContent : Text
  /-- What the web engine was asked to load. -/
  loadUrl           : List Text
  btnRefresh        : Bool
  deriving DecidableEq, Repr

namespace TabWebView

/-- `content.replace("\n", "")`. -/
def secContent (content : Text) : Text := content.filter (· ≠ '\n')

def search (w : TabWebView) (content : Text) : TabWebView where
  etSearchContent   := secContent content
  lastSearchContent := secContent content
  loadUrl           := w.loadUrl ++ [getSearchUrl ++ secContent content]
  btnRefresh        := true

/-- The search key of the keyboard, and a search handed over from another screen (`BrowserData.onLayoutNewIntent`). -/
def onSearch (w : TabWebView) (content : Text) : TabWebView := if isBlank content then w else w.search content

/-- **The text survives**: the address asked for, read as a query, has it as its parameter "q". -/
def Survives (w : TabWebView) (content : Text) : Prop :=
  ∃ url, (w.onSearch content).loadUrl = w.loadUrl ++ [url] ∧
    QueryString.parameter url "q".toList = some (content.filter (· ≠ '\n'))

theorem plain_q : QueryString.Plain "q".toList where
  hash   := by decide
  amp    := by decide
  plus   := by decide
  escape := by
    rintro ⟨before, a, b, after, h, -⟩
    have hmem : '%' ∈ "q".toList := by
      rw [h]
      simp
    exact absurd hmem (by decide)

theorem parameter_getSearchUrl (text : Text) :
    QueryString.parameter (getSearchUrl ++ text) "q".toList = some text ↔ QueryString.Plain text :=
  QueryString.parameter_eq_self_iff "https://cn.bing.com/search".toList text (by decide) (by decide) plain_q (by decide)

/-- **When the search text survives.**  For every text that is not blank, the address that the web engine is asked to load
has the text without its line breaks as its parameter "q" exactly when there is no '#', no '&' and no '+' in it, and no '%'
that two hexadecimal digits follow. -/
theorem search_survives_iff (w : TabWebView) (content : Text) (h : isBlank content = false) :
    w.Survives content ↔
      '#' ∉ content ∧ '&' ∉ content ∧ '+' ∉ content ∧ ¬ QueryString.HasEscape (content.filter (· ≠ '\n')) := by
  have hmem : ∀ c : Char, c ≠ '\n' → (c ∈ secContent content ↔ c ∈ content) := by
    intro c hc
    simp [secContent, hc]
  have hloaded : (w.onSearch content).loadUrl = w.loadUrl ++ [getSearchUrl ++ secContent content] := by
    unfold onSearch
    rw [h]
    rfl
  have hplain : w.Survives content ↔ QueryString.Plain (secContent content) := by
    unfold Survives
    rw [hloaded, ← parameter_getSearchUrl]
    simp [secContent]
  rw [hplain, ← hmem '#' (by decide), ← hmem '&' (by decide), ← hmem '+' (by decide)]
  constructor
  · intro hp
    exact ⟨hp.hash, hp.amp, hp.plus, hp.escape⟩
  · rintro ⟨hash, amp, plus, escape⟩
    exact ⟨hash, amp, plus, escape⟩

def empty : TabWebView := ⟨[], [], [], false⟩

theorem search_survives_iff_riddle : empty.Survives "What has keys?".toList := by
  refine (search_survives_iff empty "What has keys?".toList (by decide)).2 ⟨by decide, by decide, by decide, ?_⟩
  rintro ⟨before, a, b, after, heq, -⟩
  have hmem : '%' ∈ "What has keys?".toList.filter (· ≠ '\n') := by
    rw [heq]
    simp
  exact absurd hmem (by decide)

/-- **A search for "c++" arrives as a "c" and two blanks.** -/
theorem search_plus_lost : isBlank "c++".toList = false ∧ ¬ empty.Survives "c++".toList := by
  refine ⟨by decide, ?_⟩
  rintro ⟨url, hurl, hparameter⟩
  have hload : (empty.onSearch "c++".toList).loadUrl = [getSearchUrl ++ "c++".toList] := by decide
  rw [hload] at hurl
  cases hurl
  exact absurd hparameter (by decide)

end TabWebView
end Riddles
