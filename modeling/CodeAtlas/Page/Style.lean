/-!
# The style sheet

How the pages of a site look.
-/

namespace CodeAtlas.Page

def styleLines : List String :=
  ["* \x7b box-sizing: border-box; \x7d",
    "body \x7b",
    "  margin: 0;",
    "  display: grid;",
    "  grid-template-columns: 260px 1fr 340px;",
    "  height: 100vh;",
    "  font-family: -apple-system, \"Segoe UI\", Helvetica, Arial, sans-serif;",
    "  color: #24292f;",
    "\x7d",
    "#file-tree \x7b overflow: auto; padding: 8px; border-right: 1px solid #d0d7de; font-size: 13px; \x7d",
    "#file-tree ul \x7b list-style: none; padding-left: 14px; margin: 0; \x7d",
    "#file-tree > ul \x7b padding-left: 0; \x7d",
    "#file-tree .folder > span \x7b font-weight: 600; \x7d",
    "#file-tree a \x7b color: inherit; text-decoration: none; \x7d",
    "#file-tree .current-file \x7b background: #ddf4ff; \x7d",
    "#source-view \x7b overflow: auto; \x7d",
    "#welcome \x7b padding: 24px; \x7d",
    "#code-frame \x7b display: flex; font-family: ui-monospace, SFMono-Regular, Menlo, monospace; font-size: 13px; line-height: 20px; \x7d",
    "#line-numbers \x7b margin: 0; padding: 8px; text-align: right; color: #8c959f; user-select: none; \x7d",
    "#line-numbers span \x7b cursor: pointer; \x7d",
    "#code-column \x7b position: relative; flex: 1; \x7d",
    "#code \x7b margin: 0; padding: 8px; \x7d",
    "#line-highlight \x7b position: absolute; left: 0; right: 0; background: #fff8c5; pointer-events: none; \x7d",
    "#code span[id^=\"lsif\"] \x7b cursor: pointer; \x7d",
    "#code span[id^=\"lsif\"]:hover \x7b background: #eaeef2; \x7d",
    "#code span.selected-symbol \x7b background: #ffd8b5; \x7d",
    "#side-panel \x7b border-left: 1px solid #d0d7de; overflow: auto; font-size: 13px; \x7d",
    "#side-panel-tabs \x7b display: flex; border-bottom: 1px solid #d0d7de; \x7d",
    "#side-panel-tabs button \x7b flex: 1; border: none; background: none; padding: 8px; cursor: pointer; \x7d",
    "#side-panel-tabs button.enabled \x7b border-bottom: 2px solid #fd8c73; font-weight: 600; \x7d",
    "#panel-hover, #panel-search \x7b padding: 8px; \x7d",
    "#search-input \x7b width: 100%; margin-bottom: 8px; \x7d",
    "#search-result a \x7b display: block; color: inherit; text-decoration: none; \x7d",
    "#search-result pre \x7b margin: 2px 0; white-space: pre-wrap; \x7d",
    "#search-result h4 \x7b margin: 8px 0 4px; \x7d",
    "#hover-popup \x7b",
    "  position: fixed; max-width: 560px; max-height: 320px; overflow: auto; padding: 8px;",
    "  background: #fff; border: 1px solid #d0d7de; border-radius: 6px;",
    "  box-shadow: 0 8px 24px rgba(140, 149, 159, 0.2); font-size: 13px; z-index: 10;",
    "\x7d",
    ".hl-keyword \x7b color: #cf222e; \x7d",
    ".hl-string \x7b color: #0a3069; \x7d",
    ".hl-comment \x7b color: #6e7781; font-style: italic; \x7d",
    ".hl-number \x7b color: #0550ae; \x7d",
    ".hl-type \x7b color: #953800; \x7d",
    ".hl-function \x7b color: #8250df; \x7d",
    ".hl-constant \x7b color: #0550ae; \x7d"]

end CodeAtlas.Page
