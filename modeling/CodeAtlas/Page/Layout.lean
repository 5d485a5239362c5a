import CodeAtlas.Render.Basic
import CodeAtlas.Markup.Template
import CodeAtlas.Page.Script
import CodeAtlas.Page.Style

/-!
# Page layout

The two kinds of pages, one for each document and one to start from, and the assets they load.
-/

namespace CodeAtlas.Page

/-- A text given by its lines, each of which is closed. -/
def ofLines (lines : List String) : List Char :=
  lines.flatMap fun line => line.toList ++ ['\n']

/-- A text given by lines, of which the first is given by its characters. -/
theorem ofLines_cons (line : List Char) (lines : List String) :
    ofLines (String.ofList line :: lines) = line ++ '\n' :: ofLines lines := by
  simp [ofLines]

def assetFolder : String :=
  "_dist"

def assets : List (String × List Char) :=
  [("main.js", ofLines scriptLines), ("style.css", ofLines styleLines)]

/-- The lines of the page of a document. -/
def sourceTemplate : List String :=
  ["<!DOCTYPE html>",
    "<html lang=\"en\">",
    "<head>",
    "  <meta charset=\"utf-8\">",
    "  <meta name=\"viewport\" content=\"width=device-width, initial-scale=1\">",
    "  <title>\x7b\x7bFILENAME\x7d\x7d</title>",
    "  <link rel=\"stylesheet\" href=\"\x7b\x7bASSET_PATH\x7d\x7dstyle.css\">",
    "</head>",
    "<body>",
    "  <nav id=\"file-tree\">\x7b\x7bTREE\x7d\x7d</nav>",
    "  <main id=\"source-view\">",
    "    <div id=\"code-frame\">",
    "      <pre id=\"line-numbers\">\x7b\x7bLINE_NUMBERS\x7d\x7d</pre>",
    "      <div id=\"code-column\">",
    "        <div id=\"line-highlight\" hidden></div>",
    "        <pre id=\"code\"><code>\x7b\x7bSOURCE\x7d\x7d</code></pre>",
    "      </div>",
    "    </div>",
    "  </main>",
    "  <aside id=\"side-panel\">",
    "    <div id=\"side-panel-tabs\">",
    "      <button id=\"tab-panel-hover\" class=\"enabled\">Hover</button>",
    "      <button id=\"tab-panel-search\">References</button>",
    "    </div>",
    "    <div id=\"panel-hover\"></div>",
    "    <div id=\"panel-search\" hidden>",
    "      <input id=\"search-input\" placeholder=\"Click a symbol to list its references\">",
    "      <div id=\"search-result\"></div>",
    "    </div>",
    "  </aside>",
    "  <div id=\"hover-popup\" hidden></div>",
    "  <script src=\"\x7b\x7bASSET_PATH\x7d\x7dmain.js\" data-root=\"\x7b\x7bROOT_PATH\x7d\x7d\" data-file=\"\x7b\x7bFILENAME\x7d\x7d\"></script>",
    "</body>",
    "</html>"]

/-- The lines of the page to start from. -/
def welcomeTemplate : List String :=
  ["<!DOCTYPE html>",
    "<html lang=\"en\">",
    "<head>",
    "  <meta charset=\"utf-8\">",
    "  <meta name=\"viewport\" content=\"width=device-width, initial-scale=1\">",
    "  <title>Source tree</title>",
    "  <link rel=\"stylesheet\" href=\"\x7b\x7bASSET_PATH\x7d\x7dstyle.css\">",
    "</head>",
    "<body>",
    "  <nav id=\"file-tree\">\x7b\x7bTREE\x7d\x7d</nav>",
    "  <main id=\"welcome\">",
    "    <h1>Source tree</h1>",
    "    <p>Pick a file on the left. Hover a symbol to see its documentation, click it to jump to its",
    "      definition, and use the References tab to list every use.</p>",
    "  </main>",
    "</body>",
    "</html>"]

structure SourcePage where
  fileName : List Char
  toRoot : List Char
  nav : List Char
  source : List Char
  lineCount : Nat

/-- The number of a line, as it stands beside the line. -/
def lineNumber (number : Nat) : List Char :=
  s!"<span id=\"L{number}\" data-line=\"{number}\">{number}</span>\n".toList

def lineNumbers (count : Nat) : List Char :=
  (List.range' 1 (max count 1)).flatMap lineNumber

def SourcePage.values (page : SourcePage) : Markup.Values :=
  [("FILENAME".toList, Markup.escape page.fileName),
    ("ASSET_PATH".toList, page.toRoot ++ (assetFolder ++ "/").toList),
    ("ROOT_PATH".toList, page.toRoot),
    ("TREE".toList, page.nav),
    ("LINE_NUMBERS".toList, lineNumbers page.lineCount),
    ("SOURCE".toList, page.source)]

def SourcePage.render (page : SourcePage) : List Char :=
  Markup.fill page.values (ofLines sourceTemplate)

/-- The page to start from. -/
def welcome (nav : List Char) : List Char :=
  Markup.fill [("ASSET_PATH".toList, ("./" ++ assetFolder ++ "/").toList), ("TREE".toList, nav)]
    (ofLines welcomeTemplate)

end CodeAtlas.Page
