import SnippetPreview.Text.Basic

/-!
# The script of the host page

* `clientScript`: connects to the server and acts on each message: a new document goes into the frame, a reload or a
  missing frame loads the whole page anew. When the connection ends, the page is loaded anew after a while.
-/

namespace SnippetPreview

namespace ClientScript

def head : Text := "
(function() \x7b
  'use strict';

  const url = (location.protocol === 'https:' ? 'wss://' : 'ws://') + location.host + '"

def tail : Text := "';
  const ws = new WebSocket(url);
  let reconnectAttempts = 0;
  const maxReconnectAttempts = 10;

  ws.onopen = function() \x7b
    console.log('[livepane] Connected');
    reconnectAttempts = 0;
  \x7d;

  ws.onmessage = function(event) \x7b
    const msg = JSON.parse(event.data);

    switch (msg.type) \x7b
      case 'reload':
        location.reload();
        break;

      case 'update_preview':
        const frame = document.getElementById('preview');
        const kind = document.getElementById('kind');
        if (!frame) \x7b
          location.reload();
          break;
        \x7d
        frame.srcdoc = msg.html;
        if (kind) \x7b
          kind.textContent = msg.kind;
        \x7d
        break;

      case 'connected':
        console.log('[livepane] Server acknowledged connection');
        break;
    \x7d
  \x7d;

  ws.onclose = function() \x7b
    console.log('[livepane] Disconnected');
    if (reconnectAttempts < maxReconnectAttempts) \x7b
      reconnectAttempts++;
      setTimeout(function() \x7b
        location.reload();
      \x7d, 1000 * reconnectAttempts);
    \x7d
  \x7d;

  ws.onerror = function(e) \x7b
    console.error('[livepane] WebSocket error:', e);
  \x7d;
\x7d)();
"

end ClientScript

/-- The script of a page whose socket is at `path`. -/
def clientScript (path : Text) : Text := ClientScript.head ++ path ++ ClientScript.tail

end SnippetPreview
