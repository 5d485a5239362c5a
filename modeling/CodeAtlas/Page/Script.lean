/-!
# The script of a page

What a page does when a reader points at a symbol, clicks it, or opens a link to a line.
-/

namespace CodeAtlas.Page

def scriptLines : List String :=
  ["const script = document.currentScript;",
    "const root = script.dataset.root || './';",
    "const fileName = script.dataset.file;",
    "",
    "let hoverData;",
    "",
    "const getHoverData = async () => \x7b",
    "  if (!hoverData) \x7b",
    "    hoverData = fetch(`./$\x7bfileName\x7d.hover.json`).then((res) => res.json());",
    "  \x7d",
    "  return hoverData;",
    "\x7d;",
    "",
    "const refCache = new Map();",
    "",
    "const getReferences = (id) => \x7b",
    "  if (!refCache.has(id)) \x7b",
    "    refCache.set(id, fetch(`$\x7broot\x7d_data/refs/$\x7bid\x7d.json`).then((res) => res.json()));",
    "  \x7d",
    "  return refCache.get(id);",
    "\x7d;",
    "",
    "const switchTab = (to) => \x7b",
    "  [...document.getElementById('side-panel-tabs').children].forEach((e) => \x7b",
    "    e.classList.remove('enabled');",
    "  \x7d);",
    "  [...document.getElementById('side-panel').children].forEach((e) => \x7b",
    "    if (e.id === 'side-panel-tabs') return;",
    "    e.hidden = true;",
    "  \x7d);",
    "  document.getElementById(`tab-panel-$\x7bto\x7d`).classList.add('enabled');",
    "  document.getElementById(`panel-$\x7bto\x7d`).hidden = false;",
    "\x7d;",
    "",
    "[...document.getElementById('side-panel-tabs').children].forEach((e) => \x7b",
    "  e.onclick = (ev) => switchTab(ev.target.id.slice(10));",
    "\x7d);",
    "",
    "const symbolOf = (target) => target.closest && target.closest('span[id^=\"lsif\"]');",
    "",
    "const entryOf = async (span) => \x7b",
    "  const \x7b hovers, data \x7d = await getHoverData();",
    "  const entry = hovers[`x$\x7bspan.id.slice(4)\x7d`];",
    "  return entry ? \x7b entry, data \x7d : undefined;",
    "\x7d;",
    "",
    "const popup = document.getElementById('hover-popup');",
    "",
    "const showPopup = async (span) => \x7b",
    "  const found = await entryOf(span);",
    "  if (!found || found.entry.content === undefined) return;",
    "  popup.innerHTML = found.data[found.entry.content];",
    "  const rect = span.getBoundingClientRect();",
    "  popup.style.left = `$\x7brect.left\x7dpx`;",
    "  popup.style.top = `$\x7brect.bottom + 4\x7dpx`;",
    "  popup.hidden = false;",
    "  document.getElementById('panel-hover').innerHTML = popup.innerHTML;",
    "\x7d;",
    "",
    "const buildLocations = (title, locations) => \x7b",
    "  const main = document.createElement('div');",
    "  const header = document.createElement('h4');",
    "  header.innerText = `$\x7btitle\x7d ($\x7blocations.length\x7d)`;",
    "  main.appendChild(header);",
    "  locations.forEach((loc) => \x7b",
    "    const link = document.createElement('a');",
    "    link.href = `$\x7broot\x7d$\x7bloc.url\x7d`;",
    "    const pre = document.createElement('pre');",
    "    pre.innerText = `$\x7bloc.line\x7d| $\x7bloc.text\x7d`;",
    "    link.appendChild(pre);",
    "    main.appendChild(link);",
    "  \x7d);",
    "  return main;",
    "\x7d;",
    "",
    "const showReferences = async (refId, label) => \x7b",
    "  switchTab('search');",
    "  document.getElementById('search-input').value = label;",
    "  const result = document.getElementById('search-result');",
    "  result.innerText = 'Loading...';",
    "  const \x7b definitions, references \x7d = await getReferences(refId);",
    "  result.innerText = '';",
    "  result.appendChild(buildLocations('Definitions', definitions));",
    "  result.appendChild(buildLocations('References', references));",
    "\x7d;",
    "",
    "const code = document.getElementById('code');",
    "",
    "code.addEventListener('mouseover', (ev) => \x7b",
    "  const span = symbolOf(ev.target);",
    "  if (span) showPopup(span);",
    "\x7d);",
    "",
    "code.addEventListener('mouseout', (ev) => \x7b",
    "  if (symbolOf(ev.target)) popup.hidden = true;",
    "\x7d);",
    "",
    "code.addEventListener('click', async (ev) => \x7b",
    "  const span = symbolOf(ev.target);",
    "  if (!span) return;",
    "  document.querySelectorAll('.selected-symbol').forEach((e) => e.classList.remove('selected-symbol'));",
    "  span.classList.add('selected-symbol');",
    "  const found = await entryOf(span);",
    "  if (!found) return;",
    "  const \x7b entry, data \x7d = found;",
    "  if (entry.references !== undefined) \x7b",
    "    showReferences(entry.references, span.innerText);",
    "  \x7d",
    "  if (entry.definition !== undefined && !ev.ctrlKey && !ev.metaKey) \x7b",
    "    window.location.href = `$\x7broot\x7d$\x7bdata[entry.definition]\x7d`;",
    "  \x7d",
    "\x7d);",
    "",
    "const parseHash = () => \x7b",
    "  const m = /^#(\\d+)(?:-(\\d+))?$/.exec(window.location.hash);",
    "  if (!m) return undefined;",
    "  const from = Number(m[1]);",
    "  const to = m[2] === undefined ? from : Number(m[2]);",
    "  return \x7b from: Math.min(from, to), to: Math.max(from, to) \x7d;",
    "\x7d;",
    "",
    "const highlightLines = () => \x7b",
    "  const overlay = document.getElementById('line-highlight');",
    "  const selection = parseHash();",
    "  if (!selection) \x7b",
    "    overlay.hidden = true;",
    "    return;",
    "  \x7d",
    "  const first = document.getElementById(`L$\x7bselection.from\x7d`);",
    "  if (!first) return;",
    "  const lineHeight = first.getBoundingClientRect().height;",
    "  overlay.style.top = `$\x7b8 + (selection.from - 1) * lineHeight\x7dpx`;",
    "  overlay.style.height = `$\x7b(selection.to - selection.from + 1) * lineHeight\x7dpx`;",
    "  overlay.hidden = false;",
    "  first.scrollIntoView(\x7b block: 'center' \x7d);",
    "\x7d;",
    "",
    "let anchorLine;",
    "",
    "document.getElementById('line-numbers').addEventListener('click', (ev) => \x7b",
    "  const line = ev.target.dataset && ev.target.dataset.line;",
    "  if (!line) return;",
    "  if (ev.shiftKey && anchorLine !== undefined) \x7b",
    "    window.location.hash = `#$\x7banchorLine\x7d-$\x7bline\x7d`;",
    "  \x7d else \x7b",
    "    anchorLine = line;",
    "    window.location.hash = `#$\x7bline\x7d`;",
    "  \x7d",
    "\x7d);",
    "",
    "window.addEventListener('hashchange', highlightLines);",
    "highlightLines();"]

end CodeAtlas.Page
